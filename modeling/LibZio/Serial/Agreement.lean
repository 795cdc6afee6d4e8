import LibZio.Serial.TwinCalls

/-! # Two backends side by side

The two backends agree on a call if both fail or both return a count, and if both record an error
code or neither does, whatever the code is. They disagree in three cases: a read on an open port
that gets no byte in time (`-1` on Unix, `0` on Windows), a read that fails on the device (`0` on
Unix, `-1` on Windows), and a close of a port that is not open (`-1` on Unix, `0` on Windows); on
every other call they agree (`serialTwins_agree_iff`). -/

namespace LibZio

/-! ## Agreement -/

/-- The call records the error code it is given. -/
def Records {Dev : Type} (f : ℤ → SerialRes (ℤ × Serial Dev)) : Prop :=
  ∀ e, ∃ rc ctx, f e = .ok (rc, ctx) ∧ ctx.errCode = e

/-- The calls return the same class of value, failure or count, and record an error code in the same
cases. -/
structure Agree {Dev Dev' : Type} (f : ℤ → SerialRes (ℤ × Serial Dev))
    (g : ℤ → SerialRes (ℤ × Serial Dev')) : Prop where
  sameClass : ∀ e, ∃ rc ctx rc' ctx', f e = .ok (rc, ctx) ∧ g e = .ok (rc', ctx') ∧
    (rc = -1 ↔ rc' = -1)
  sameRecord : Records f ↔ Records g

/-- A call records an error code if it yields so. -/
theorem Yields.records_iff {Dev : Type} {f : ℤ → SerialRes (ℤ × Serial Dev)} {rc old : ℤ}
    {records : Bool} (h : Yields f rc records old) : Records f ↔ records = true := by
  constructor
  · intro hr
    by_contra hn
    obtain ⟨rc', ctx', h', code'⟩ := hr (old + 1)
    obtain ⟨ctx, hf, code⟩ := h (old + 1)
    rw [hf] at h'
    cases h'
    rw [if_neg hn] at code
    omega
  · intro hr e
    obtain ⟨ctx, hf, code⟩ := h e
    rw [if_pos hr] at code
    exact ⟨rc, ctx, hf, code⟩

/-- Agreement, read off what the calls yield. -/
theorem Yields.agree_iff {Dev Dev' : Type} {f : ℤ → SerialRes (ℤ × Serial Dev)}
    {g : ℤ → SerialRes (ℤ × Serial Dev')} {rc rc' old old' : ℤ} {records records' : Bool}
    (hf : Yields f rc records old) (hg : Yields g rc' records' old') :
    Agree f g ↔ (rc = -1 ↔ rc' = -1) ∧ records = records' := by
  constructor
  · intro h
    obtain ⟨r, ctx, r', ctx', h₁, h₂, same⟩ := h.sameClass 0
    obtain ⟨ctx₁, hf₁, -⟩ := hf 0
    obtain ⟨ctx₂, hg₂, -⟩ := hg 0
    rw [hf₁] at h₁
    rw [hg₂] at h₂
    cases h₁
    cases h₂
    refine ⟨same, ?_⟩
    rw [Bool.eq_iff_iff, ← hf.records_iff, ← hg.records_iff]
    exact h.sameRecord
  · rintro ⟨same, rfl⟩
    constructor
    · intro e
      obtain ⟨ctx, h₁, -⟩ := hf e
      obtain ⟨ctx', h₂, -⟩ := hg e
      exact ⟨rc, ctx, rc', ctx', h₁, h₂, same⟩
    · rw [hf.records_iff, hg.records_iff]

/-! ## The twins -/

/-- Make the same call on both ports. -/
def twinStep (p : Serial UnixDev × Serial WinDev) (i : TwinCall × ℤ) :
    SerialRes (Serial UnixDev × Serial WinDev) := do
  match i.1 with
  | .read _ mtimeout _ => ensure (0 < mtimeout) .environment
  | _ => pure ()
  let (_, u) ← unixCall i.1 i.2 p.1
  let (_, v) ← winCall i.1 i.2 p.2
  return (u, v)

/-- One port of each platform, as `serial_new` makes it. -/
def serialTwins (asked : Request) (u : Serial UnixDev) (v : Serial WinDev) :
    Machine (Serial UnixDev × Serial WinDev) (TwinCall × ℤ) SerialFault where
  init := (newPort (B := linuxSerialBackend) asked u, newPort (B := winSerialBackend) asked v)
  step := twinStep

/-- The backends agree on the call. -/
def BackendsAgree (p : Serial UnixDev × Serial WinDev) (i : TwinCall × ℤ) : Prop :=
  Agree (fun e => unixCall i.1 e p.1) (fun e => winCall i.1 e p.2)

/-- A read on an open port gets bytes, or fails with no room for any; and a port is closed while it
is open. -/
def OnCommonGround (p : Serial UnixDev × Serial WinDev) (i : TwinCall × ℤ) : Prop :=
  match i.1 with
  | .openPort _ => True
  | .read _ _ (.bytes _ _) => True
  | .read _ _ .silence => p.1.isOpen = false
  | .read buf _ .error => p.1.isOpen = false ∨ buf = []
  | .write _ => True
  | .closePort => p.1.isOpen = true

/-- The two ports are both open or both closed, and their descriptors tell. -/
structure Twins (u : Serial UnixDev) (v : Serial WinDev) : Prop where
  same : u.isOpen = v.isOpen
  unix : u.isOpen = true ↔ u.s ≠ -1
  win : v.isOpen = true ↔ v.fd ≠ INVALID_HANDLE_VALUE

/-! ## Step by step -/

variable {p p' : Serial UnixDev × Serial WinDev} {i : TwinCall × ℤ}

/-- A step of the twins is the call on each. -/
theorem twinStep_eq_ok (h : twinStep p i = .ok p') :
    (∀ buf mtimeout behaviour, i.1 = .read buf mtimeout behaviour → 0 < mtimeout) ∧
      ∃ rc rc', unixCall i.1 i.2 p.1 = .ok (rc, p'.1) ∧ winCall i.1 i.2 p.2 = .ok (rc', p'.2) := by
  obtain ⟨c, e⟩ := i
  have calls {x : SerialRes PUnit} (h : (do
      x
      let (_, u) ← unixCall c e p.1
      let (_, v) ← winCall c e p.2
      return (u, v)) = Except.ok p') :
      x = .ok ⟨⟩ ∧
        ∃ rc rc', unixCall c e p.1 = .ok (rc, p'.1) ∧ winCall c e p.2 = .ok (rc', p'.2) := by
    obtain ⟨a, hx, h⟩ := bind_eq_ok.mp h
    obtain ⟨⟨rc, u⟩, hu, h⟩ := bind_eq_ok.mp h
    obtain ⟨⟨rc', v⟩, hv, h⟩ := bind_eq_ok.mp h
    cases h
    exact ⟨hx, rc, rc', hu, hv⟩
  cases c with
  | read buf mtimeout behaviour =>
      obtain ⟨hx, both⟩ := @calls (ensure (0 < mtimeout) .environment) h
      refine ⟨fun _ _ _ same => ?_, both⟩
      cases same
      exact of_decide_eq_true (ensure_eq_ok.mp hx)
  | openPort fd => exact ⟨nofun, (@calls (pure ⟨⟩) h).2⟩
  | write taken => exact ⟨nofun, (@calls (pure ⟨⟩) h).2⟩
  | closePort => exact ⟨nofun, (@calls (pure ⟨⟩) h).2⟩

/-- The ports stay twins. -/
theorem Twins.step (twins : Twins p.1 p.2) (h : twinStep p i = .ok p') : Twins p'.1 p'.2 := by
  obtain ⟨-, rc, rc', hu, hv⟩ := twinStep_eq_ok h
  obtain ⟨open₁, tells₁⟩ := unixCall_leaves twins.unix hu
  obtain ⟨open₂, tells₂⟩ := winCall_leaves twins.win hv
  exact ⟨by rw [open₁, open₂, twins.same], tells₁, tells₂⟩

/-- The backends agree on a call exactly on common ground. -/
theorem backendsAgree_iff (twins : Twins p.1 p.2) (h : twinStep p i = .ok p') :
    BackendsAgree p i ↔ OnCommonGround p i := by
  obtain ⟨positive, rc, rc', hu, hv⟩ := twinStep_eq_ok h
  obtain ⟨c, e⟩ := i
  obtain ⟨u, v⟩ := p
  have same : v.isOpen = u.isOpen := twins.same.symm
  cases c with
  | openPort fd =>
      have hopen := (unixOpen_yields (u := u) fd).agree_iff (winOpen_yields (v := v) fd)
      rw [same] at hopen
      exact iff_of_true (hopen.mpr ⟨Iff.rfl, rfl⟩) trivial
  | read buf mtimeout behaviour =>
      have hpos : 0 < mtimeout := positive _ _ _ rfl
      cases hopen : u.isOpen with
      | false =>
          have agree : BackendsAgree (u, v) (.read buf mtimeout behaviour, e) :=
            ((unixRead_closed hopen behaviour).agree_iff
              (winRead_closed (same.trans hopen) behaviour)).mpr ⟨Iff.rfl, rfl⟩
          refine iff_of_true agree ?_
          cases behaviour with
          | bytes first rest => trivial
          | silence => exact hopen
          | error => exact .inl hopen
      | true =>
          have some := twins.unix.mp hopen
          have hwin : Yields (fun e => winCall (.read buf mtimeout behaviour) e v) _ _ _ :=
            winRead_open (same.trans hopen) (winRead_fits (same.trans hopen) hv)
          have shut : ¬u.isOpen = false := fun off => Bool.false_ne_true (off.symm.trans hopen)
          cases behaviour with
          | bytes first rest =>
              have fits := winRead_fits (same.trans hopen) hv _ rfl
              have agree := (unixRead_bytes hopen some hpos fits).agree_iff hwin
              exact iff_of_true (agree.mpr ⟨Iff.rfl, rfl⟩) trivial
          | silence =>
              -- Unix reports that nothing came, Windows that `0` bytes did
              have agree : BackendsAgree (u, v) (.read buf mtimeout .silence, e) ↔ _ :=
                (unixRead_silence hopen some hpos).agree_iff hwin
              exact iff_of_false (fun h => nomatch (agree.mp h).2) shut
          | error =>
              have agree : BackendsAgree (u, v) (.read buf mtimeout .error, e) ↔ _ :=
                (unixRead_error hopen some hpos).agree_iff hwin
              refine agree.trans ⟨fun h => .inr (of_decide_eq_true h.2), fun h => ?_⟩
              -- only an empty buffer is read without asking the device
              have empty : buf = [] := h.resolve_left shut
              rw [if_pos empty, decide_eq_true empty]
              exact ⟨Iff.rfl, rfl⟩
  | write taken =>
      have agree := (unixWrite_yields twins.unix taken).agree_iff (winWrite_yields (v := v) taken)
      rw [same] at agree
      exact iff_of_true (agree.mpr ⟨Iff.rfl, rfl⟩) trivial
  | closePort =>
      have agree := (unixClose_yields twins.unix).agree_iff (winClose_yields (v := v))
      refine agree.trans ⟨fun h => ?_, fun ho => ?_⟩
      · have hc := h.1
        by_contra off
        have off : ¬u.isOpen = true := off
        rw [if_neg off] at hc
        exact absurd (hc.mp rfl) (by decide)
      · have ho : u.isOpen = true := ho
        rw [if_pos ho]
        exact ⟨Iff.rfl, rfl⟩

/-! ## Whole runs -/

/-- Ports that `serial_new` makes are twins. -/
theorem serialTwins_start (asked : Request) (u : Serial UnixDev) (v : Serial WinDev) :
    Twins (serialTwins asked u v).init.1 (serialTwins asked u v).init.2 where
  same := rfl
  unix := ⟨fun h => absurd h Bool.false_ne_true, fun h => absurd rfl h⟩
  win := ⟨fun h => absurd h Bool.false_ne_true, fun h => absurd rfl h⟩

/-- In a run of calls on both ports, the backends agree on every call if and only if every call is
on common ground. -/
theorem serialTwins_agree_iff (asked : Request) (u : Serial UnixDev) (v : Serial WinDev)
    {is : List (TwinCall × ℤ)} {p : Serial UnixDev × Serial WinDev}
    (run : (serialTwins asked u v).run is (serialTwins asked u v).init = .ok p) :
    (serialTwins asked u v).Throughout (fun p i _ => BackendsAgree p i) is
        (serialTwins asked u v).init ↔
      (serialTwins asked u v).Meets OnCommonGround is (serialTwins asked u v).init := by
  have start := serialTwins_start asked u v
  constructor
  · intro all
    exact all.meets (I := fun p => Twins p.1 p.2)
      (fun p i p' twins agree hs => ⟨(backendsAgree_iff twins hs).mp agree, twins.step hs⟩) start
      run
  · intro ground
    exact Machine.throughout_of_meets (M := serialTwins asked u v) (I := fun p => Twins p.1 p.2)
      (fun p i p' twins ground hs => ⟨(backendsAgree_iff twins hs).mpr ground, twins.step hs⟩) start
      ground

/-- A port that is opened, read, written and closed. -/
theorem serialTwins_agree_once : ∃ ports : Machine (Serial UnixDev × Serial WinDev) (TwinCall × ℤ)
    SerialFault, ∃ is p, ports.run is ports.init = .ok p ∧ is.length = 4 ∧
      ports.Throughout (fun p i _ => BackendsAgree p i) is ports.init := by
  let asked : Request := ⟨1, 9600, 'N'.toUInt8, 8, 1, 1⟩
  let u : Serial UnixDev := ⟨false, false, 0, 0, ⟨"", 0, 0, 0, 0, ⟨{}, 0⟩⟩⟩
  let v : Serial WinDev := ⟨false, false, 0, 0, ⟨"", 0, 0, 0, 0, ⟨0, {}⟩⟩⟩
  let is : List (TwinCall × ℤ) := [(.openPort (some 3), 5),
    (.read [0, 0] 10 (.bytes ⟨[7], by decide⟩ []), 5), (.write (some 1), 5), (.closePort, 5)]
  have ground : (serialTwins asked u v).Meets OnCommonGround is (serialTwins asked u v).init := by
    refine ⟨trivial, fun p₁ h₁ => ?_⟩
    cases h₁
    refine ⟨trivial, fun p₂ h₂ => ?_⟩
    cases h₂
    refine ⟨trivial, fun p₃ h₃ => ?_⟩
    cases h₃
    exact ⟨rfl, fun _ _ => trivial⟩
  exact ⟨serialTwins asked u v, is, _, rfl, rfl, (serialTwins_agree_iff asked u v rfl).mpr ground⟩

/-- An open port from which no byte comes in time. -/
theorem serialTwins_disagree : ¬∀ (asked : Request) (u : Serial UnixDev) (v : Serial WinDev)
    (is : List (TwinCall × ℤ)) (p : Serial UnixDev × Serial WinDev),
    (serialTwins asked u v).run is (serialTwins asked u v).init = .ok p →
      (serialTwins asked u v).Throughout (fun p i _ => BackendsAgree p i) is
        (serialTwins asked u v).init := by
  intro all
  let asked : Request := ⟨1, 9600, 'N'.toUInt8, 8, 1, 1⟩
  let u : Serial UnixDev := ⟨false, false, 0, 0, ⟨"", 0, 0, 0, 0, ⟨{}, 0⟩⟩⟩
  let v : Serial WinDev := ⟨false, false, 0, 0, ⟨"", 0, 0, 0, 0, ⟨0, {}⟩⟩⟩
  have every := all asked u v [(.openPort (some 3), 5), (.read [0] 10 .silence, 5)] _ rfl
  have opens : twinStep (serialTwins asked u v).init (.openPort (some 3), 5) = .ok _ := rfl
  obtain ⟨-, second⟩ := every _ opens
  obtain ⟨agree, -⟩ := second _ rfl
  have off := (backendsAgree_iff ((serialTwins_start asked u v).step opens) rfl).mp agree
  cases off

end LibZio
