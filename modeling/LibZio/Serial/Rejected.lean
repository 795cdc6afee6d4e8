import LibZio.Serial.OpenCount

/-! # A port with an unknown parity

`serial_new` refuses a parity it does not know when it has already allocated the object, and hands
the object to `destory`. On Unix that closes the descriptor in the object, which has not been
written yet: it is what the memory held before. The call has no side effect exactly if this is no
descriptor of the process. -/

namespace LibZio

/-- The line of a descriptor in `fds` is configured, or such a descriptor closed. -/
def DevEvent.TouchesOpen {Settings : Type} (fds : Set ℤ) : DevEvent Settings → Prop
  | .opened _ => False
  | .configured fd _ => fd ∈ fds
  | .closed fd => fd ∈ fds

/-- A rejected `serial_new` that got the memory `p` leaves nothing behind: the entries and the other
objects are as they were, the memory is free again, and of the descriptors `fds` none was
touched. -/
structure LeavesNoTrace (fds : Set ℤ) (p : Pid) (w w' : UnixPorts) : Prop where
  mangers : w'.mangers = w.mangers
  freed : w'.mem p = .freed
  others : ∀ q, q ≠ p → w'.mem q = w.mem q
  untouched : ∃ es : List (DevEvent Termios),
    w'.trace = .freed p :: (es.map (SerialEvent.device (B := linuxSerialBackend) p) ++ w.trace) ∧
      ∀ e ∈ es, ¬e.TouchesOpen fds

variable {w w' : UnixPorts} {asked : Request} {answer : NewAnswer linuxSerialBackend}
  {fds : Set ℤ}

/-- What `serial_new` leaves when it does not know the parity. -/
theorem serialNew_rejects
    (absent : w.findSerial (linuxSerialBackend.devname asked.index) = .ok none)
    (unused : w.mem answer.ptr = .unused) (parity : parityKnown asked.parity = false) :
    serialNew asked answer w = .ok (none, (w.logDev answer.ptr
      (unixSerialDestory answer.close (badPort asked answer.garbage))).free answer.ptr) := by
  simp only [serialNew, absent, ok_bind, unused, parity, Bool.not_false, if_true]
  rfl

/-- A rejection hands out no handle. -/
theorem serialNewRecord_rejects (holder : ℕ)
    (absent : w.findSerial (linuxSerialBackend.devname asked.index) = .ok none)
    (unused : w.mem answer.ptr = .unused) (parity : parityKnown asked.parity = false) :
    serialNewRecord holder asked answer w = .ok (none, (w.logDev answer.ptr
      (unixSerialDestory answer.close (badPort asked answer.garbage))).free answer.ptr) := by
  rw [serialNewRecord, serialNew_rejects absent unused parity]
  rfl

/-- The memory counts as an open line if it holds a descriptor. -/
theorem badPort_s (asked : Request) (garbage : Serial UnixDev) :
    (badPort (B := linuxSerialBackend) asked garbage).s = garbage.s := rfl

/-- Giving up an object touches the descriptor it seems to have, if it seems to have one. -/
theorem unixSerialDestory_untouched_iff (answer : UnixCloseAnswer) (ctx : Serial UnixDev) :
    (∀ e ∈ unixSerialDestory answer ctx, ¬e.TouchesOpen fds) ↔ ctx.s = -1 ∨ ctx.s ∉ fds := by
  rw [unixSerialDestory]
  have way := unixSerialClose_closes answer ctx
  generalize unixSerialClose answer ctx = out at way
  cases way with
  | idle off => simp [off]
  | stuck some failed => simp [DevEvent.TouchesOpen, some]
  | closed some restored => simp [DevEvent.TouchesOpen, some]

/-- A rejected `serial_new` without a side effect got memory that holds no descriptor of the
process. -/
theorem LeavesNoTrace.garbage (h : LeavesNoTrace fds answer.ptr w w')
    (absent : w.findSerial (linuxSerialBackend.devname asked.index) = .ok none)
    (unused : w.mem answer.ptr = .unused) (parity : parityKnown asked.parity = false)
    (hnew : serialNew asked answer w = .ok (none, w')) :
    answer.garbage.s = -1 ∨ answer.garbage.s ∉ fds := by
  obtain ⟨-, -, -, es, htrace, huntouched⟩ := h
  rw [serialNew_rejects absent unused parity] at hnew
  cases hnew
  -- the events of the call are those of `destory`
  have hsame := List.append_cancel_right (List.cons_injective htrace)
  have hes : unixSerialDestory answer.close (badPort asked answer.garbage) = es :=
    (List.map_injective_iff.mpr fun a b hab => (SerialEvent.device.inj hab).2) hsame
  rw [← badPort_s asked, ← unixSerialDestory_untouched_iff answer.close, hes]
  exact huntouched

/-- **A rejected `serial_new` has no side effect** if and only if the memory it got holds no
descriptor of the process where the descriptor of the port will be. -/
theorem serialNew_rejected_iff (fds : Set ℤ)
    (absent : w.findSerial (linuxSerialBackend.devname asked.index) = .ok none)
    (unused : w.mem answer.ptr = .unused) (parity : parityKnown asked.parity = false) :
    (∃ w', serialNew asked answer w = .ok (none, w') ∧
      LeavesNoTrace fds answer.ptr w w') ↔ answer.garbage.s = -1 ∨ answer.garbage.s ∉ fds := by
  refine ⟨fun ⟨w', hnew, h⟩ => h.garbage absent unused parity hnew, fun hgarbage => ?_⟩
  rw [← badPort_s asked, ← unixSerialDestory_untouched_iff answer.close] at hgarbage
  exact ⟨_, serialNew_rejects absent unused parity, rfl, Function.update_self ..,
    fun q hq => Function.update_of_ne hq .., _, rfl, hgarbage⟩

theorem serialNew_rejected_blank : ∃ w' : UnixPorts,
    serialNew (B := linuxSerialBackend) ⟨0, 9600, 'X'.toUInt8, 8, 1, 0⟩
      ⟨0, ⟨false, false, 0, 0, ⟨"", 0, 0, 0, 0, ⟨{}, -1⟩⟩⟩, ⟨true, 0⟩⟩ {} = .ok (none, w') ∧
    LeavesNoTrace Set.univ 0 {} w' :=
  (serialNew_rejected_iff Set.univ rfl rfl (by decide)).mpr (.inl rfl)

/-- Where the memory holds zeros, the standard input is closed. -/
theorem serialNew_rejected_closes : ¬∃ w' : UnixPorts,
    serialNew (B := linuxSerialBackend) ⟨0, 9600, 'X'.toUInt8, 8, 1, 0⟩
      ⟨0, ⟨false, false, 0, 0, ⟨"", 0, 0, 0, 0, ⟨{}, 0⟩⟩⟩, ⟨true, 0⟩⟩ {} = .ok (none, w') ∧
    LeavesNoTrace {0} 0 {} w' := by
  rintro ⟨w', hnew, h⟩
  obtain hnone | hclosed := h.garbage rfl rfl (by decide) hnew
  · exact absurd hnone (by decide)
  · exact hclosed rfl

end LibZio
