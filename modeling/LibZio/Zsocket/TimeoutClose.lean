import LibZio.Zsocket.PassDiscipline

/-! # Closing by the inactivity timeout

Which sockets a pass of `zsocket_do_close` closes because their timeout has run out. The comment of
`tick` says that `0` disables the timeout, and a socket that is EOF is closed already; the code
looks at neither. A connection without a time, or one that its owner has closed, is closed by its
timeout too, and loses the callback its owner gave. -/

namespace LibZio

variable {w w' v v' : World} {s t pos : Sid} {y z : ZSocket} {io : Sid → CloseIo}

namespace CloseVisit

/-- The law of the timeout for an iteration at the time `now`: the close is started for a connection
that is not EOF, whose timeout is not disabled and has run out, and an EOF socket keeps its state
and its callback. -/
structure TimesOut (r : CloseVisit) (now : ℤ) : Prop where
  started : r.started = true ↔ r.reached.type = .connection ∧ r.reached.eof = false ∧
    r.reached.tick ≠ 0 ∧ now - r.reached.tick > r.reached.stall
  keeps : r.reached.eof = true →
    r.checked.state = r.reached.state ∧ r.checked.closeCb = r.reached.closeCb

/-- An iteration of the code as its record shows it. -/
structure Recorded (r : CloseVisit) (now : ℤ) : Prop where
  started : r.started = r.reached.stale now
  checked : r.checked = if r.reached.stale now then r.reached.timedOut else r.reached

/-- A recorded iteration obeys the law exactly when a timeout that has run out is neither disabled
nor that of an EOF socket. -/
theorem Recorded.timesOut_iff {r : CloseVisit} {now : ℤ} (h : r.Recorded now) :
    r.TimesOut now ↔
      (r.reached.stale now = true → r.reached.tick ≠ 0 ∧ r.reached.eof = false) := by
  obtain ⟨hstarted, hchecked⟩ := h
  have hstale : r.reached.stale now = true ↔
      r.reached.type = .connection ∧ now - r.reached.tick > r.reached.stall := by
    rw [ZSocket.stale, Bool.and_eq_true, decide_eq_true_iff, decide_eq_true_iff]
  constructor
  · intro law hs
    obtain ⟨-, he, htick, -⟩ := law.started.mp (hstarted.trans hs)
    exact ⟨htick, he⟩
  · intro hfresh
    refine ⟨?_, fun he => ?_⟩
    · rw [hstarted]
      constructor
      · intro hs
        obtain ⟨htick, he⟩ := hfresh hs
        obtain ⟨htype, hdue⟩ := hstale.mp hs
        exact ⟨htype, he, htick, hdue⟩
      · rintro ⟨htype, -, -, hdue⟩
        exact hstale.mpr ⟨htype, hdue⟩
    · have hs : ¬ r.reached.stale now = true := by
        intro hs
        rw [(hfresh hs).2] at he
        cases he
      rw [hchecked, if_neg hs]
      exact ⟨rfl, rfl⟩

/-- The cascade of an iteration is that of a server that was EOF when it was reached. -/
theorem Recorded.cascades_iff {r : CloseVisit} {now : ℤ} (h : r.Recorded now) :
    r.cascades = true ↔ r.reached.type = .server ∧ r.reached.eof = true := by
  rw [cascades, Bool.and_eq_true, decide_eq_true_iff, h.checked]
  by_cases hs : r.reached.stale now = true
  · have hconn : r.reached.type = .connection := of_decide_eq_true ((Bool.and_eq_true _ _).mp hs).1
    rw [if_pos hs, show r.reached.timedOut.type = r.reached.type from rfl, hconn]
    simp
  · rw [if_neg hs, and_comm]

/-- A server is asked for EOF as it was reached. -/
theorem Recorded.checked_of_server {r : CloseVisit} {now : ℤ} (h : r.Recorded now)
    (ht : r.reached.type = .server) : r.checked = r.reached := by
  have hs : ¬ r.reached.stale now = true := by
    rw [ZSocket.stale, ht]
    simp
  rw [h.checked, if_neg hs]

end CloseVisit

/-! ## What is EOF when it is reached -/

/-- A closed server among the sockets `p` has the local port of `z`. -/
def World.Closes (w : World) (p : List Sid) (z : ZSocket) : Prop :=
  ∃ s ∈ p, ∃ y, w.mem s = .live y ∧ y.type = .server ∧ y.eof = true ∧
    y.laddr.sinPort = z.laddr.sinPort

/-- What one more socket passed adds. -/
theorem World.closes_append {p : List Sid} {x : ZSocket} (hx : w.mem pos = .live x) :
    w.Closes (p ++ [pos]) z ↔ w.Closes p z ∨
      x.type = .server ∧ x.eof = true ∧ x.laddr.sinPort = z.laddr.sinPort := by
  constructor
  · rintro ⟨s, hs, y, hy, hrest⟩
    obtain hs | hs := List.mem_append.mp hs
    · exact .inl ⟨s, hs, y, hy, hrest⟩
    · obtain rfl := List.mem_singleton.mp hs
      obtain rfl : x = y := Slot.live.inj (hx.symm.trans hy)
      exact .inr hrest
  · rintro (⟨s, hs, hrest⟩ | hrest)
    · exact ⟨s, List.mem_append_left _ hs, hrest⟩
    · exact ⟨pos, by simp, x, hx, hrest⟩

/-- A socket with the same port is closed by the same servers. -/
theorem World.Closes.of_port {p : List Sid} (h : w.Closes p y)
    (hp : y.laddr.sinPort = z.laddr.sinPort) : w.Closes p z := by
  obtain ⟨s, hs, x, hx, ht, he, hxp⟩ := h
  exact ⟨s, hs, x, hx, ht, he, hxp.trans hp⟩

/-- The socket `z`, as it was when the pass started, is `z'` once the sockets `p` have been passed:
closed if it was closed before or by the cascade of one of them. -/
structure World.Reaches (w : World) (p : List Sid) (z z' : ZSocket) : Prop where
  fields : z' = z ∨ z' = z.closed none
  eof : z'.eof = true ↔ z.eof = true ∨ w.Closes p z

/-- What decides the timeout is as it was. -/
theorem World.Reaches.stale {p : List Sid} {z' : ZSocket} (h : w.Reaches p z z') (now : ℤ) :
    z'.stale now = z.stale now ∧ z'.tick = z.tick := by
  obtain rfl | rfl := h.fields <;> exact ⟨rfl, rfl⟩

/-- A pass so far, with the states of the sockets ahead and the states in which those passed were
reached. -/
structure TimeoutPass (w : World) (io : Sid → CloseIo) (p l : List Sid) (visits : List CloseVisit)
    (v : World) : Prop where
  soFar : PassSoFar w p l visits v
  ahead : ∀ t ∈ l, ∃ z z', w.mem t = .live z ∧ v.mem t = .live z' ∧ w.Reaches p z z'
  recorded : ∀ r ∈ visits, r.Recorded (io r.sock).now ∧ ∃ z, w.mem r.sock = .live z ∧
    w.Reaches (w.socks.takeWhile (· ≠ r.sock)) z r.reached

/-- A further socket is passed: the cascade of a closed server closes the sockets with its port. -/
theorem World.Reaches.passed {p : List Sid} {r : CloseVisit} {x x' z z' : ZSocket} {now : ℤ}
    (h : w.Reaches p z z') (hpos : w.mem pos = .live x) (hx : w.Reaches p x x')
    (hreached : r.reached = x') (hr : r.Recorded now)
    (hguard : r.cascades = true → z'.laddr.sinPort = r.checked.laddr.sinPort → z'.eof = false) :
    w.Reaches (p ++ [pos]) z (if r.cascades then z'.cascaded r.checked.laddr.sinPort else z') := by
  have hxport : x'.laddr = x.laddr ∧ x'.type = x.type := by
    obtain rfl | rfl := hx.fields <;> exact ⟨rfl, rfl⟩
  have hzport : z'.laddr = z.laddr := by obtain rfl | rfl := h.fields <;> rfl
  have hcascades := hr.cascades_iff
  rw [hreached, hxport.2] at hcascades
  by_cases hc : r.cascades = true
  · obtain ⟨htype, heof⟩ := hcascades.mp hc
    have hchecked : r.checked.laddr = x.laddr := by
      rw [hr.checked_of_server (by rw [hreached, hxport.2, htype]), hreached, hxport.1]
    rw [if_pos hc, hchecked]
    rw [hchecked, hzport] at hguard
    by_cases hp : z.laddr.sinPort = x.laddr.sinPort
    -- the socket has the port, so that it was open, and is closed
    · obtain rfl : z' = z := by
        obtain hz | hz := h.fields
        · exact hz
        · have hopen := hguard hc hp
          rw [hz, ZSocket.closed_eof] at hopen
          cases hopen
      rw [ZSocket.cascaded, if_pos hp]
      refine ⟨.inr rfl, iff_of_true (ZSocket.closed_eof _ _)
        (.inr ((World.closes_append hpos).mpr ?_))⟩
      obtain he | hbefore := hx.eof.mp heof
      · exact .inr ⟨htype, he, hp.symm⟩
      · exact .inl (hbefore.of_port hp.symm)
    · rw [ZSocket.cascaded, hzport, if_neg hp]
      refine ⟨h.fields, h.eof.trans (or_congr_right ?_)⟩
      rw [World.closes_append hpos]
      exact ⟨.inl, fun hor => hor.resolve_right fun hx => hp hx.2.2.symm⟩
  · rw [if_neg hc]
    refine ⟨h.fields, h.eof.trans (or_congr_right ?_)⟩
    rw [World.closes_append hpos]
    refine ⟨.inl, fun hor => hor.resolve_right fun hserver => hc ?_⟩
    exact hcascades.mpr ⟨hserver.1, hx.eof.mpr (.inl hserver.2.1)⟩

/-- **An iteration goes on with the pass.** -/
theorem TimeoutPass.visit {p l p' : List Sid} {visits : List CloseVisit} {r : CloseVisit}
    (h : TimeoutPass w io p (pos :: l) visits v) (hw : w.Roster) (hv : v.Roster)
    (hl : v.inLooping = true) (hsp : w.socks = p ++ pos :: l) (hs : v.socks = p' ++ pos :: l)
    (hvisit : doCloseVisitRecord pos (io pos) v = .ok (r, v')) :
    TimeoutPass w io (p ++ [pos]) l (visits ++ [r]) v' := by
  have hpos : pos ∈ v.socks := by rw [hs]; simp
  obtain ⟨x, x', hx, hx', hreaches⟩ := h.ahead pos (by simp)
  obtain ⟨hr, hdid⟩ := doCloseVisitRecord_did hv hl hpos hx' hvisit
  have hsock : r.sock = pos := by rw [hr]
  have hreached : r.reached = x' := by rw [hr]
  have hrecorded : r.Recorded (io pos).now := ⟨by rw [hr], by rw [hr]⟩
  refine ⟨h.soFar.visit hw hv hl hsp hs hvisit, fun t ht => ?_, fun r₀ hr₀ => ?_⟩
  · obtain ⟨z, z', hz, hz', hzr⟩ := h.ahead t (List.mem_cons_of_mem _ ht)
    have hne : t ≠ pos := by
      rintro rfl
      have hnd := hw.nodup
      rw [hsp] at hnd
      exact (List.nodup_cons.mp (List.nodup_append.mp hnd).2.1).1 ht
    obtain ⟨y, hy, hy', hguard⟩ := hdid.others t (by rw [hs]; simp [ht]) (hsock ▸ hne)
    obtain rfl : z' = y := Slot.live.inj (hz'.symm.trans hy)
    exact ⟨z, _, hz, hy', hzr.passed hx hreaches hreached hrecorded hguard⟩
  · obtain hr₀ | hr₀ := List.mem_append.mp hr₀
    · exact h.recorded r₀ hr₀
    · obtain rfl := List.mem_singleton.mp hr₀
      rw [hsock, hsp, takeWhile_ne_append (hw.split hsp).1, hreached]
      exact ⟨hrecorded, x, hx, hreaches⟩

/-- No timeout goes wrong in a pass over `w`: one that has run out is not disabled, and is of a
socket that is neither closed nor behind a closed server with its port. -/
def World.TimeoutsDue (w : World) (io : Sid → CloseIo) : Prop :=
  ∀ t ∈ w.socks, ∀ z, w.mem t = .live z → z.stale (io t).now = true →
    z.tick ≠ 0 ∧ z.eof = false ∧ ¬ w.Closes (w.socks.takeWhile (· ≠ t)) z

/-- **When the timeout closes the right sockets.** A pass that returns obeys the law of the timeout
in every iteration exactly when no timeout goes wrong. -/
theorem timeouts_exact_iff (hw : w.Roster) (hl : w.inLooping = true) {visits : List CloseVisit}
    (h : zsocketDoCloseRecord io w = .ok (visits, w')) :
    (visits.map CloseVisit.sock = w.socks ∧ ∀ r ∈ visits, r.TimesOut (io r.sock).now) ↔
      w.TimeoutsDue io := by
  have start : TimeoutPass w io [] w.socks [] w := by
    refine ⟨PassSoFar.start w, fun t ht => ?_, fun _ hr => absurd hr List.not_mem_nil⟩
    obtain ⟨z, hz, -⟩ := hw.live t ht
    refine ⟨z, z, hz, hz, .inl rfl, ⟨.inl, fun hor => hor.resolve_right ?_⟩⟩
    rintro ⟨s, hs, -⟩
    exact List.not_mem_nil hs
  obtain ⟨-, -, hend⟩ :=
    (@zsocketDoCloseRecord_rule w io (TimeoutPass w io) (fun _ => True) hw hl start
      fun p pos l visits v p' hv hvl hsp hs h =>
        ⟨fun _ _ => trivial, fun r v' hvisit => h.visit hw hv hvl hsp hs hvisit⟩).2 visits w' h
  have hpassed := hend.soFar.passed
  constructor
  · rintro ⟨-, law⟩ t ht z hz hs
    obtain ⟨r, hr, rfl⟩ := List.mem_map.mp (hpassed ▸ ht)
    obtain ⟨hrecorded, z₀, hz₀, hreaches⟩ := hend.recorded r hr
    obtain rfl : z = z₀ := Slot.live.inj (hz.symm.trans hz₀)
    obtain ⟨hstale, htick⟩ := hreaches.stale (io r.sock).now
    obtain ⟨hfresh, hopen⟩ := hrecorded.timesOut_iff.mp (law r hr) (hstale.trans hs)
    have hnot : ¬ (z.eof = true ∨ w.Closes (w.socks.takeWhile (· ≠ r.sock)) z) := by
      rw [← hreaches.eof, hopen]
      decide
    exact ⟨htick ▸ hfresh, by simpa using fun he => hnot (.inl he), fun hc => hnot (.inr hc)⟩
  · intro due
    refine ⟨hpassed, fun r hr => ?_⟩
    obtain ⟨hrecorded, z, hz, hreaches⟩ := hend.recorded r hr
    obtain ⟨hstale, htick⟩ := hreaches.stale (io r.sock).now
    refine hrecorded.timesOut_iff.mpr fun hs => ?_
    obtain ⟨hfresh, hopen, hcloses⟩ :=
      due r.sock (hpassed ▸ List.mem_map_of_mem hr) z hz (hstale.symm.trans hs)
    refine ⟨htick ▸ hfresh, eq_false_of_ne_true fun he => ?_⟩
    obtain he | hc := hreaches.eof.mp he
    · rw [hopen] at he
      cases he
    · exact hcloses hc

/-- Whether a pass at the time `now` returns, with an iteration that satisfies `p`. -/
def passRecords (now : ℤ) (p : CloseVisit → Bool) (w : World) : Bool :=
  w.inLooping && match zsocketDoCloseRecord (fun _ => ⟨now, []⟩) w with
    | .ok (visits, _) => visits.any p
    | .error _ => false

theorem passRecords_iff {now : ℤ} {p : CloseVisit → Bool} : passRecords now p w = true ↔
    w.inLooping = true ∧ ∃ visits w',
      zsocketDoCloseRecord (fun _ => ⟨now, []⟩) w = .ok (visits, w') ∧
      ∃ r ∈ visits, p r = true := by
  rw [passRecords, Bool.and_eq_true]
  refine and_congr_right fun _ => ?_
  cases zsocketDoCloseRecord (fun _ => ⟨now, []⟩) w with
  | error e => simp
  | ok a =>
      rw [List.any_eq_true]
      exact ⟨fun h => ⟨a.1, a.2, rfl, h⟩, fun ⟨_, _, ha, h⟩ => by cases ha; exact h⟩

/-- In the last call of `zsocket_loop` the `connection_cb` of the server closes the connection `1`
with the callback `9`, and the poll is over. -/
def ownerCloses : List Input :=
  acceptOne 8000 ++
    [.loop 1000 (.ready {3} ∅),
      .visit (.calling []),
      .visit (.calling [.close 1 (some 9)])]

/-- A connection that its owner has closed a moment ago keeps the callback it was given up to its
teardown. -/
theorem timeouts_exact_closed : ∃ (w w' : World) (visits : List CloseVisit),
    zsocketDoCloseRecord (fun _ => ⟨100, []⟩) w = .ok (visits, w') ∧
      (∃ r ∈ visits, r.reached.eof = true ∧ r.reached.closeCb = some 9) ∧
      ∀ r ∈ visits, r.TimesOut 100 := by
  obtain ⟨c, r, h⟩ := Machine.Reach.of_leadsTo (M := zio)
    (P := fun c => (c.world.socks.all fun t => c.world.check t fun z => !z.stale 100) &&
      passRecords 100 (fun r => decide (r.reached.eof = true ∧ r.reached.closeCb = some 9)) c.world)
    .init
    (show zio.leadsTo Machine.anyStep _ ownerCloses zio.init = true by decide +kernel)
  obtain ⟨hfresh, hpass⟩ := (Bool.and_eq_true _ _).mp h
  obtain ⟨hl, visits, w', hrecord, v, hv, hclosed⟩ := passRecords_iff.mp hpass
  have hdue : c.world.TimeoutsDue fun _ => ⟨100, []⟩ := by
    intro t ht z hz hs
    have hnot := World.of_check (List.all_eq_true.mp hfresh t ht) hz
    rw [hs] at hnot
    cases hnot
  exact ⟨c.world, w', visits, hrecord, ⟨v, hv, of_decide_eq_true hclosed⟩,
    ((timeouts_exact_iff (Sys.sound r).wf.roster hl hrecord).mpr hdue).2⟩

/-- A connection whose timeout is disabled, and which its owner has closed, is closed by its timeout
all the same, and loses the callback it was given. -/
theorem timeouts_exact_fails : ∃ (w w' : World) (r : CloseVisit) (visits : List CloseVisit),
    zsocketDoCloseRecord (fun _ => ⟨1000, []⟩) w = .ok (visits, w') ∧ r ∈ visits ∧
      r.reached.type = .connection ∧ r.reached.tick = 0 ∧ r.started = true ∧ ¬ r.TimesOut 1000 ∧
      r.reached.eof = true ∧ r.reached.closeCb = some 9 ∧ r.checked.closeCb = none := by
  obtain ⟨c, -, h⟩ := Machine.Reach.of_leadsTo (M := zio)
    (P := fun c => passRecords 1000 (fun r => decide (r.reached.type = .connection ∧
      r.reached.tick = 0 ∧ r.started = true ∧ r.reached.eof = true ∧ r.reached.closeCb = some 9 ∧
      r.checked.closeCb = none)) c.world) .init
    (show zio.leadsTo Machine.anyStep _ ownerCloses zio.init = true by decide +kernel)
  obtain ⟨-, visits, w', hrecord, r, hr, hfields⟩ := passRecords_iff.mp h
  obtain ⟨htype, htick, hstarted, he, hcb, hlost⟩ := of_decide_eq_true hfields
  refine ⟨c.world, w', r, visits, hrecord, hr, htype, htick, hstarted, fun law => ?_, he,
    hcb, hlost⟩
  exact (law.started.mp hstarted).2.2.1 htick

end LibZio
