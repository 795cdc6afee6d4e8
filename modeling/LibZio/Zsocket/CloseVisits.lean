import LibZio.Zsocket.Refinement

/-! # One iteration of the deferred closes

`zsocket_do_close` closes a connection whose timeout has run out, and tears down a socket that is
EOF: it is unlinked, which closes the connections of a server, released, and freed if it is a
connection. An iteration is given with a record of what it found and did, which is otherwise the
iteration itself (`doCloseVisitRecord_snd`). For a listed socket it goes one of five ways
(`doCloseVisitRecord_eq`), of which the three that return are left in a well-formed world
(`doCloseVisit_eq_ok`). -/

namespace LibZio

variable {w w' : World} {s pos : Sid} {z : ZSocket}

/-! ## The worlds of an iteration -/

/-- The fields of a connection whose timeout has run out, once it is closed. -/
def ZSocket.timedOut (z : ZSocket) : ZSocket :=
  ZSocket.closed { z with state := z.state &&& ZS_S_TIMEOUT } none

/-- The world in which the connection `s`, with fields `z`, was closed by its timeout. -/
def World.timedOutWorld (w : World) (s : Sid) (z : ZSocket) : World :=
  (w.put s { z with state := z.state &&& ZS_S_TIMEOUT }).closedWorld s
    { z with state := z.state &&& ZS_S_TIMEOUT } none

/-- The world in which the unlinked socket `s`, with fields `z`, is released, and freed if it is a
connection. -/
def World.reapedWorld (w : World) (s : Sid) (z : ZSocket) : World :=
  if z.type = .connection then
    World.log { w.releasedWorld s z with mem := Function.update (w.releasedWorld s z).mem s .freed }
      (.freed s)
  else w.releasedWorld s z

/-- The teardown of the closed socket `s`, with fields `z`, in the deferred pass. -/
def reap (s : Sid) (z : ZSocket) (w : World) : Res World := do
  let w ← unlinkCascade s z w
  return w.reapedWorld s z.unlinked

/-! ## The teardown -/

/-- A closed socket is reaped. Its `close_cb` has been cleared by the teardown, so no callback
runs. -/
theorem doCloseTeardown_eq {io : CloseIo} (hw : w.Roster) (hl : w.inLooping = true)
    (hs : pos ∈ w.socks) (hz : w.mem pos = .live z) (he : z.eof = true) (ht : z.type ≠ .none) :
    doCloseTeardown pos io w = reap pos z w := by
  rw [doCloseTeardown, _zsocketClose_eq hw hl hs hz he ht, reap]
  cases unlinkCascade pos z w with
  | error e => rfl
  | ok v =>
      have hself : (v.releasedWorld pos z.unlinked).mem pos = .live z.unlinked.torn :=
        World.put_mem_self _ _ _
      rw [ok_bind, ok_bind]
      change Except.ok (v.releasedWorld pos z.unlinked) >>= _ = Except.ok
        (v.reapedWorld pos z.unlinked)
      rw [ok_bind, World.deref_eq_ok.mpr hself, ok_bind,
        show z.unlinked.torn.closeCb = none from rfl]
      dsimp only
      rw [ok_bind, World.deref_eq_ok.mpr hself, ok_bind, World.reapedWorld,
        show z.unlinked.torn.type = z.unlinked.type from rfl]
      by_cases hc : z.unlinked.type = .connection
      · rw [if_pos hc, if_pos hc, World.free, World.deref_eq_ok.mpr hself, ok_bind]
        rfl
      · rw [if_neg hc, if_neg hc]
        rfl

/-- A socket without a type is not torn down. -/
theorem doCloseTeardown_untyped {io : CloseIo} (hz : w.mem pos = .live z) (he : z.eof = true)
    (ht : z.type = .none) : doCloseTeardown pos io w = .error (.assert .teardownType) := by
  rw [doCloseTeardown, _zsocketClose, _zsocketCloseFuel, World.deref_eq_ok.mpr hz, ok_bind, he,
    ensure_true, ok_bind, ht]
  rfl

/-! ## What a teardown leaves of the list -/

/-- The cascade keeps the list. -/
theorem cascade_roster {port : UInt16} {l : List Sid} (hw : w.Roster) (hl : w.inLooping = true)
    (h : cascade port l w = .ok w') : w'.Roster := by
  induction l generalizing w with
  | nil => cases h; exact hw
  | cons pos l ih =>
      rw [cascade, List.foldlM_cons] at h
      obtain ⟨w₁, hb, h⟩ := bind_eq_ok.mp h
      obtain ⟨⟨hw₁, hl₁⟩, -⟩ := cascadeBody_roster ⟨hw, hl⟩ hb
      exact ih hw₁ hl₁ h

/-- A socket is taken off the list, and its cascade leaves the rest of it. -/
theorem unlinkCascade_frame (hw : w.Roster) (hl : w.inLooping = true)
    (h : unlinkCascade pos z w = .ok w') :
    w'.Roster ∧ w'.inLooping = true ∧ w'.socks = w.socks.erase pos := by
  unfold unlinkCascade at h
  by_cases hs : z.type = .server
  · rw [if_pos hs] at h
    obtain ⟨hl', hs', -⟩ := cascade_frame (w := w.unlinkedWorld pos z) hl h
    exact ⟨cascade_roster hw.unlinkedWorld hl h, hl', hs'⟩
  · rw [if_neg hs] at h
    cases h
    exact ⟨hw.unlinkedWorld, hl, rfl⟩

/-- The teardown of a closed socket returns exactly if its cascade does. -/
theorem reap_eq_ok : reap pos z w = .ok w' ↔
    ∃ v, unlinkCascade pos z w = .ok v ∧ w' = v.reapedWorld pos z.unlinked := by
  rw [reap, bind_eq_ok]
  refine exists_congr fun v => and_congr_right fun _ => ?_
  rw [pure_eq_ok, eq_comm]

/-- The release of a socket leaves the mode, the list and the other sockets. -/
theorem reapedWorld_frame : (w.reapedWorld pos z).inLooping = w.inLooping ∧
    (w.reapedWorld pos z).socks = w.socks ∧
    ∀ t, t ≠ pos → (w.reapedWorld pos z).mem t = w.mem t := by
  have hmode : (w.releasedWorld pos z).inLooping = w.inLooping := rfl
  have hsocks : (w.releasedWorld pos z).socks = w.socks := rfl
  have hmem : ∀ t, t ≠ pos → (w.releasedWorld pos z).mem t = w.mem t := fun t hne =>
    World.put_mem_of_ne _ hne _
  unfold World.reapedWorld
  generalize w.releasedWorld pos z = v at hmode hsocks hmem ⊢
  by_cases ht : z.type = .connection
  · rw [if_pos ht]
    exact ⟨hmode, hsocks, fun t hne => (Function.update_of_ne hne _ _).trans (hmem t hne)⟩
  · rw [if_neg ht]
    exact ⟨hmode, hsocks, hmem⟩

/-- The teardown of a closed socket takes it off the list. -/
theorem reap_frame (hw : w.Roster) (hl : w.inLooping = true) (h : reap pos z w = .ok w') :
    w'.Roster ∧ w'.inLooping = true ∧ w'.socks = w.socks.erase pos := by
  obtain ⟨v, hv, rfl⟩ := reap_eq_ok.mp h
  obtain ⟨hr, hl', hs'⟩ := unlinkCascade_frame hw hl hv
  have hpos : pos ∉ v.socks := hs' ▸ hw.nodup.not_mem_erase
  obtain ⟨hmode, hsocks, hmem⟩ := @reapedWorld_frame v pos z.unlinked
  refine ⟨hr.congr hsocks fun t ht y hy => ?_, hmode.trans hl', hsocks.trans hs'⟩
  exact ⟨y, (hmem t fun hc => hpos (hc ▸ ht)).trans hy, rfl⟩

/-! ## The close by the timeout -/

/-- The close by the timeout either marks the socket, or its descriptor is out of range: the
rewritten state word is not EOF. -/
theorem zsocketClose_timedOut_eq (hl : w.inLooping = true) :
    zsocketClose pos none (w.put pos { z with state := z.state &&& ZS_S_TIMEOUT }) =
      if World.InRange z.fd then .ok (w.timedOutWorld pos z) else .error (.undefined .fdRange) := by
  have hopen : ZSocket.eof { z with state := z.state &&& ZS_S_TIMEOUT } = false :=
    hasFlag_and_of_disjoint _ (by decide)
  rw [zsocketClose, zsocketCloseWith_eq (by exact hl) (World.put_mem_self _ _ _), hopen,
    if_neg (by decide)]
  rfl

/-- The close by the timeout returns when the descriptor is in range. -/
theorem zsocketClose_timedOut (hl : w.inLooping = true) :
    zsocketClose pos none (w.put pos { z with state := z.state &&& ZS_S_TIMEOUT }) = .ok w' ↔
      World.InRange z.fd ∧ w' = w.timedOutWorld pos z := by
  rw [zsocketClose_timedOut_eq hl]
  by_cases hfd : World.InRange z.fd
  · rw [if_pos hfd, Except.ok.injEq, eq_comm]
    exact (and_iff_right hfd).symm
  · rw [if_neg hfd]
    simp [hfd]

/-- The close by the timeout keeps the list. -/
theorem World.Roster.timedOutWorld (hw : w.Roster) (hz : w.mem pos = .live z) :
    (w.timedOutWorld pos z).Roster :=
  (hw.put (y := { z with state := z.state &&& ZS_S_TIMEOUT }) hz rfl).closedWorld
    (World.put_mem_self _ _ _) none

/-- The close by the timeout keeps a world well formed. -/
theorem World.WF.timedOutWorld (hw : w.WF) (hz : w.mem pos = .live z) (hn : z.node = .linked) :
    (w.timedOutWorld pos z).WF :=
  (@World.WF.rewrite w pos z hw hz hn _ ZS_S_TIMEOUT (by decide)
    ⟨rfl, rfl, rfl, rfl, rfl, rfl, rfl, rfl, rfl⟩).closedWorld (World.put_mem_self _ _ _) hn none

/-! ## The iteration on record -/

/-- An iteration of `zsocket_do_close`. -/
structure CloseVisit where
  sock : Sid
  /-- The fields of the socket when it was reached. -/
  reached : ZSocket
  /-- Whether a close by its timeout was started. -/
  started : Bool
  /-- The fields of the socket when it was asked whether it is EOF. -/
  checked : ZSocket

/-- `doCloseVisit`, with the record of the iteration. -/
def doCloseVisitRecord (pos : Sid) (io : CloseIo) (w : World) : Res (CloseVisit × World) := do
  let z ← w.deref pos
  let (started, w) ←
    (if z.stale io.now then
      Prod.mk true <$> zsocketClose pos none
      (w.put pos { z with state := z.state &&& ZS_S_TIMEOUT })
    else .ok (false, w) : Res (Bool × World))
  let y ← w.deref pos
  let w ← (if y.eof then doCloseTeardown pos io w else .ok w : Res World)
  return (⟨pos, z, started, y⟩, w)

/-- The record does not change an iteration. -/
theorem doCloseVisitRecord_snd (pos : Sid) (io : CloseIo) (w : World) :
    Prod.snd <$> doCloseVisitRecord pos io w = doCloseVisit pos io w := by
  rw [doCloseVisitRecord, doCloseVisit, map_bind]
  refine bind_congr fun z => ?_
  by_cases hs : z.stale io.now = true
  · rw [if_pos hs, if_pos hs, map_bind, bind_map_left]
    refine bind_congr fun v => ?_
    dsimp only
    rw [map_bind]
    refine bind_congr fun y => ?_
    cases y.eof with
    | false => rfl
    | true => simp
  · rw [if_neg hs, if_neg hs, map_bind, ok_bind, ok_bind, map_bind]
    refine bind_congr fun y => ?_
    cases y.eof with
    | false => rfl
    | true => simp

/-- An iteration that returns has a record. -/
theorem doCloseVisitRecord_of {io : CloseIo} (h : doCloseVisit pos io w = .ok w') :
    ∃ r, doCloseVisitRecord pos io w = .ok (r, w') := by
  obtain ⟨⟨r, v⟩, hrecord, rfl⟩ := map_eq_ok.mp ((doCloseVisitRecord_snd pos io w).trans h)
  exact ⟨r, hrecord⟩

/-- An iteration on record is an iteration. -/
theorem doCloseVisit_of {io : CloseIo} {r : CloseVisit}
    (h : doCloseVisitRecord pos io w = .ok (r, w')) :
    doCloseVisit pos io w = .ok w' :=
  (doCloseVisitRecord_snd pos io w).symm.trans (map_eq_ok.mpr ⟨_, h, rfl⟩)

/-- **The ways an iteration of `zsocket_do_close` goes** for a listed socket. -/
theorem doCloseVisitRecord_eq {io : CloseIo} (hw : w.Roster) (hl : w.inLooping = true)
    (hs : pos ∈ w.socks) (hz : w.mem pos = .live z) :
    doCloseVisitRecord pos io w =
      if z.stale io.now then
        if World.InRange z.fd then
          (⟨pos, z, true, z.timedOut⟩, ·) <$> reap pos z.timedOut (w.timedOutWorld pos z)
        else .error (.undefined .fdRange)
      else if z.eof then
        if z.type = .none then .error (.assert .teardownType)
        else (⟨pos, z, false, z⟩, ·) <$> reap pos z w
      else .ok (⟨pos, z, false, z⟩, w) := by
  have reaps : ∀ {v : World} {y : ZSocket} {b : Bool}, v.Roster → v.inLooping = true →
      pos ∈ v.socks → v.mem pos = .live y → y.eof = true → y.type ≠ .none →
      (do let w ← (if y.eof then doCloseTeardown pos io v else .ok v : Res World)
          return ((⟨pos, z, b, y⟩ : CloseVisit), w)) =
        (⟨pos, z, b, y⟩, ·) <$> reap pos y v := by
    intro v y b hv hvl hvs hy he ht
    rw [if_pos he, doCloseTeardown_eq hv hvl hvs hy he ht, map_eq_pure_bind]
  rw [doCloseVisitRecord, World.deref_eq_ok.mpr hz, ok_bind]
  by_cases hstale : z.stale io.now = true
  · rw [if_pos hstale, if_pos hstale, zsocketClose_timedOut_eq hl]
    by_cases hfd : World.InRange z.fd
    · have hself : (w.timedOutWorld pos z).mem pos = .live z.timedOut := World.put_mem_self _ _ _
      have htype : z.timedOut.type ≠ .none := by
        have hconn : z.type = .connection := of_decide_eq_true ((Bool.and_eq_true _ _).mp hstale).1
        rw [show z.timedOut.type = z.type from rfl, hconn]
        decide
      rw [if_pos hfd, if_pos hfd]
      change (Except.ok (true, w.timedOutWorld pos z) >>= _) = _
      rw [ok_bind]
      dsimp only
      rw [World.deref_eq_ok.mpr hself, ok_bind]
      exact reaps (hw.timedOutWorld hz) hl hs hself (ZSocket.closed_eof _ _) htype
    · rw [if_neg hfd, if_neg hfd]
      rfl
  · rw [if_neg hstale, if_neg hstale, ok_bind]
    dsimp only
    rw [World.deref_eq_ok.mpr hz, ok_bind]
    cases he : z.eof with
    | false => rfl
    | true =>
        rw [if_pos rfl]
        by_cases ht : z.type = .none
        · rw [if_pos rfl, if_pos ht, doCloseTeardown_untyped hz he ht]
          rfl
        · have hreaps := reaps (b := false) hw hl hs hz he ht
          rw [he] at hreaps
          rw [if_neg ht]
          exact hreaps

/-- **The ways an iteration of `zsocket_do_close` returns** in a well-formed world: the socket is
left alone, is reaped, or is closed by its timeout and reaped. -/
theorem doCloseVisit_eq_ok {io : CloseIo} (hw : w.WF) (hl : w.inLooping = true)
    (hz : w.mem pos = .live z) (hn : z.node = .linked) :
    doCloseVisit pos io w = .ok w' ↔
      (z.stale io.now = false ∧ z.eof = false ∧ w' = w) ∨
        (z.stale io.now = false ∧ z.eof = true ∧ reap pos z w = .ok w') ∨
        (z.stale io.now = true ∧ World.InRange z.fd ∧
          reap pos z.timedOut (w.timedOutWorld pos z) = .ok w') := by
  have htype : z.type ≠ .none := (hw.shape_linked hz hn).2.1
  have hrecord : doCloseVisit pos io w = .ok w' ↔ ∃ r, doCloseVisitRecord pos io w = .ok (r, w') :=
    ⟨doCloseVisitRecord_of, fun ⟨_, h⟩ => doCloseVisit_of h⟩
  rw [hrecord]
  simp only [doCloseVisitRecord_eq hw.roster hl (hw.mem_socks hz hn) hz]
  cases hs : z.stale io.now with
  | false =>
      cases he : z.eof with
      | false => simp [eq_comm]
      | true => simp [htype, map_eq_ok]
  | true =>
      by_cases hfd : World.InRange z.fd
      · simp [hfd, map_eq_ok]
      · simp [hfd]

/-- The moved cursor: an iteration that returns leaves the list behind the socket it visited. -/
theorem doCloseVisitRecord_frame {io : CloseIo} {r : CloseVisit} {p l : List Sid} (hw : w.Roster)
    (hl : w.inLooping = true) (hs : w.socks = p ++ pos :: l)
    (h : doCloseVisitRecord pos io w = .ok (r, w')) :
    w'.Roster ∧ w'.inLooping = true ∧ ∃ p', w'.socks = p' ++ l := by
  have hpos : pos ∈ w.socks := by rw [hs]; simp
  obtain ⟨z, hz, -⟩ := hw.live pos hpos
  have reaped : ∀ {v : World} {y : ZSocket} {r₀ : CloseVisit}, v.Roster → v.inLooping = true →
      v.socks = w.socks → (r₀, ·) <$> reap pos y v = .ok (r, w') →
      w'.Roster ∧ w'.inLooping = true ∧ ∃ p', w'.socks = p' ++ l := by
    intro v y r₀ hv hvl hvs h
    obtain ⟨u, hreap, hu⟩ := map_eq_ok.mp h
    obtain rfl : u = w' := (Prod.mk.inj hu).2
    obtain ⟨hu, hul, hus⟩ := reap_frame hv hvl hreap
    exact ⟨hu, hul, p, by rw [hus, hvs, (hw.split hs).2]⟩
  rw [doCloseVisitRecord_eq hw hl hpos hz] at h
  by_cases hstale : z.stale io.now = true
  · rw [if_pos hstale] at h
    by_cases hfd : World.InRange z.fd
    · rw [if_pos hfd] at h
      exact reaped (hw.timedOutWorld hz) hl rfl h
    · rw [if_neg hfd] at h
      cases h
  · rw [if_neg hstale] at h
    cases he : z.eof with
    | false =>
        rw [he, if_neg (by decide)] at h
        cases h
        exact ⟨hw, hl, p ++ [pos], by rw [hs, List.append_assoc]; rfl⟩
    | true =>
        rw [he, if_pos rfl] at h
        by_cases ht : z.type = .none
        · rw [if_pos ht] at h
          cases h
        · rw [if_neg ht] at h
          exact reaped hw hl rfl h

end LibZio
