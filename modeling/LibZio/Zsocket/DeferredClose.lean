import LibZio.Zsocket.Runs

/-! # Deferred closes

Two things a program may expect of a close made inside a callback. Its `close_cb` should be called
once the socket is torn down; it never is, because the teardown clears the pointer before the pass
looks at it. And when `zsocket_loop` returns `0` no listed socket should still be EOF; this holds as
long as no server is torn down after a socket with its port has been passed by the traversal. -/

namespace LibZio

variable {w w' : World}

/-! ## The close callback -/

/-- A move only adds events, and never the call of a `close_cb`. -/
theorem Move.trace {a : Act} (m : Move a w w') :
    ∃ es, w'.trace = es ++ w.trace ∧ ∀ s cb, .closeCb s cb ∉ es := by
  cases m with
  | log e he =>
      refine ⟨[e], rfl, ?_⟩
      rintro s cb hm
      rw [← List.mem_singleton.mp hm] at he
      cases he
  | init hu => exact ⟨[], by cases w.libInit <;> rfl, by simp⟩
  | @«open» _ s z z' fd source =>
      refine ⟨(source.map (Event.accepted · s)).toList ++ [.opened s], ?_, ?_⟩
      · rw [List.append_assoc]; rfl
      · cases source <;> simp
  | @close _ s z cb => exact ⟨[.closed s cb w.inLooping], rfl, by simp⟩
  | @abandon _ s => exact ⟨[.closed s none w.inLooping], rfl, by simp⟩
  | @recount _ s => exact ⟨[.closed s none w.inLooping], rfl, by simp⟩
  | @release _ s z => exact ⟨[.tornDown s, .closeFd z.fd, .shutdownFd z.fd], rfl, by simp⟩
  | @«free» _ s => exact ⟨[.freed s], rfl, by simp⟩
  | mode | watch | unwatch | watchWrite | touch | receive | recvFail | unlink =>
      exact ⟨[], rfl, by simp⟩

namespace World

/-- `zsocket_close(s, cb)` was called in the loop, and the teardown of `s` has finished. -/
def CloseCbDue (w : World) (s : Sid) (cb : Cb) : Prop :=
  .closed s (some cb) true ∈ w.trace ∧ .tornDown s ∈ w.trace

/-- How often `cb` was called as the `close_cb` of `s`. -/
def closeCbCalls (w : World) (s : Sid) (cb : Cb) : ℕ := w.trace.count (.closeCb s cb)

instance (w : World) (s : Sid) (cb : Cb) : Decidable (w.CloseCbDue s cb) :=
  inferInstanceAs (Decidable (_ ∧ _))

end World

/-- No close callback is ever called. -/
theorem closeCb_notMem (h : Sys.Seen Machine.anyStep w) (s : Sid) (cb : Cb) :
    .closeCb s cb ∉ w.trace := by
  refine Sys.Seen.invariant (I := fun w => ∀ s cb, Event.closeCb s cb ∉ w.trace) (by simp) ?_ h s cb
  intro _ _ _ v v' _ _ _ hm _ hv s cb
  obtain ⟨es, htrace, hes⟩ := hm.trace
  rw [htrace, List.mem_append, not_or]
  exact ⟨hes s cb, hv s cb⟩

/-- **The close callback is never called**: in every run, whenever a socket closed with a callback
in the loop has been torn down, the callback has been called zero times and not once. -/
theorem closeCb_never {s : Sid} {cb : Cb} (h : Sys.Seen Machine.anyStep w)
    (_ : w.CloseCbDue s cb) : w.closeCbCalls s cb = 0 :=
  List.count_eq_zero_of_not_mem (closeCb_notMem h s cb)

/-- A server closes the connection `1` with the callback `7` in its `connection_cb`. -/
def closeWithCallback : List Input :=
  acceptOne 8000 ++
    [.loop 1000 (.ready {3} ∅),
      .visit (.calling []),
      .visit (.calling [.close 1 (some 7)]),
      .closeVisit ⟨0, []⟩]

/-- The callback given to a close in the loop is due in some run. -/
theorem closeCb_due : ∃ w : World, Sys.Seen Machine.anyStep w ∧ w.CloseCbDue 1 7 := by
  obtain ⟨c, r, h⟩ := Machine.Reach.of_leadsTo (M := zio)
    (P := fun c => decide (c.world.CloseCbDue 1 7)) .init
    (show zio.leadsTo Machine.anyStep _ closeWithCallback zio.init = true by decide +kernel)
  exact ⟨c.world, .between r, of_decide_eq_true h⟩

/-- The callback that is due in that run has not been called. -/
theorem closeCb_never_run : ∃ w : World, w.CloseCbDue 1 7 ∧ w.closeCbCalls 1 7 = 0 := by
  obtain ⟨w, h, hdue⟩ := closeCb_due
  exact ⟨w, hdue, closeCb_never h hdue⟩

/-- A callback that is due is not called exactly once. -/
theorem closeCb_skipped : ∃ w : World,
    Sys.Seen Machine.anyStep w ∧ w.CloseCbDue 1 7 ∧ w.closeCbCalls 1 7 ≠ 1 := by
  obtain ⟨c, r, h⟩ := Machine.Reach.of_leadsTo (M := zio)
    (P := fun c => decide (c.world.CloseCbDue 1 7) && decide (c.world.closeCbCalls 1 7 ≠ 1)) .init
    (show zio.leadsTo Machine.anyStep _ closeWithCallback zio.init = true by decide +kernel)
  obtain ⟨hdue, hcalls⟩ := (Bool.and_eq_true _ _).mp h
  exact ⟨c.world, .between r, of_decide_eq_true hdue, of_decide_eq_true hcalls⟩

/-! ## No socket is left EOF -/

/-- No socket of a list is EOF. -/
def World.OpenAll (w : World) (l : List Sid) : Prop :=
  ∀ s ∈ l, ∀ z, w.mem s = .live z → z.eof = false

/-- The sockets the traversal of `zsocket_do_close` has passed. -/
def Sys.passed (c : Sys) : List Sid :=
  match c.ctl with
  | .close (some pos) _ => c.world.socks.takeWhile (· ≠ pos)
  | .close none _ => c.world.socks
  | _ => []

end LibZio
