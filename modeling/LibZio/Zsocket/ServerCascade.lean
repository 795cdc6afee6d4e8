import LibZio.Zsocket.Cascade

/-! # Closing a server

A server closed in the loop should take the connections accepted from it along, and nothing else.
The library does not record which server a connection was accepted from: a teardown closes every
listed socket that has the local port of the server. So the outcome is right only under a condition
on the ports, the closed sockets and the timeouts, read off the list (`server_cascade_exact_iff`). A
server that shares its port with another one takes that one along (`cascade_takes_server`), and a
connection whose own port is not the one its server was given, as when the server was bound to port
`0`, is left open (`cascade_misses_connection`). -/

namespace LibZio

variable {w w' : World} {s t : Sid} {y z : ZSocket} {cb : Option Cb} {passes : ℕ → Sid → CloseIo}

namespace World

/-- `t` is a connection accepted from `s` that is still open. -/
def ownsOpen (w : World) (s t : Sid) : Bool :=
  decide (.accepted s t ∈ w.trace) && w.isOpen .connection t

/-- The sockets of `w` as a sweep sees them once `s` is closed as well. -/
def sweepFrom (w : World) (s : Sid) : Sweep Sid where
  listed := w.socks
  marked := fun t => decide (t = s) || w.has t ZSocket.eof
  marks := fun t => w.closingsOf t + (decide (t = s)).toNat

/-- Closing `s` and tearing down until nothing is EOF goes through, and closes `s` and the open
connections accepted from it once, and nothing else. -/
def CascadeExact (w : World) (s : Sid) (cb : Option Cb) (passes : ℕ → Sid → CloseIo) : Prop :=
  ∃ w₂ w₃, zsocketClose s cb w = .ok w₂ ∧ Drained passes w₂ w₃ ∧
    ∀ t, w₃.closingsOf t = w.closingsOf t + if t = s ∨ w.ownsOpen s t = true then 1 else 0

/-- The descriptor of `s` fits an `fd_set`, and the sockets that the passes mark are the open
connections accepted from `s`. -/
def CascadeFits (w : World) (s : Sid) (passes : ℕ → Sid → CloseIo) : Prop :=
  w.roll.fits s = true ∧
    w.roll.Matched (fun n => w.expired (passes n)) (w.ownsOpen s) (w.sweepFrom s)

/-- An open connection is live. -/
theorem ownsOpen_live (h : w.ownsOpen s t = true) :
    ∃ y, w.mem t = .live y ∧ y.eof = false ∧ y.type = .connection := by
  obtain ⟨-, hopen⟩ := (Bool.and_eq_true _ _).mp h
  unfold isOpen at hopen
  split at hopen
  case h_1 y hy => exact ⟨y, hy, by simpa using hopen⟩
  case h_2 => cases hopen

/-- A server does not own a server. -/
theorem ownsOpen_of_server (hz : w.mem t = .live z) (ht : z.type = .server) :
    w.ownsOpen s t = false := by
  by_contra h
  obtain ⟨y, hy, -, hyt⟩ := ownsOpen_live ((Bool.not_eq_false _).mp h)
  obtain rfl : z = y := Slot.live.inj (hz.symm.trans hy)
  rw [ht] at hyt
  cases hyt

/-- Only a connection expires. -/
theorem expired_of_server {io : Sid → CloseIo} (hz : w.mem t = .live z) (ht : z.type = .server) :
    w.expired io t = false := by
  rw [expired, has_live hz]
  simp [ZSocket.stale, ht]

/-- The open connections of a server are listed, and none of them is marked or a chief. -/
theorem WF.owes (hw : w.WF) (hz : w.mem s = .live z) (ht : z.type = .server) :
    w.roll.Owes (w.ownsOpen s) (w.sweepFrom s) where
  nodup := hw.nodup
  listed := fun t h => by
    obtain ⟨y, hy, he, hyt⟩ := ownsOpen_live h
    exact hw.mem_socks hy (hw.linked_of_typed hy (by simp [hyt]) he)
  «open» := fun t h => by
    obtain ⟨y, hy, he, -⟩ := ownsOpen_live h
    have hne : t ≠ s := by
      rintro rfl
      rw [ownsOpen_of_server hz ht] at h
      cases h
    simp [sweepFrom, hne, has_live hy, he]
  follower := fun t h => by
    obtain ⟨y, hy, -, hyt⟩ := ownsOpen_live h
    simp [roll, has_live hy, hyt]

/-- After the close the world is as far as the sweep. -/
theorem WF.tracks (hw : w.WF) (hz : w.mem s = .live z) :
    w.Tracks (w.closedWorld s z cb) (w.sweepFrom s) where
  socks := rfl
  same := fun t ht => by
    obtain ⟨y, hy, -⟩ := hw.live_of_mem (s := t) ht
    by_cases hts : t = s
    · subst hts
      obtain rfl : z = y := Slot.live.inj (hz.symm.trans hy)
      exact ⟨z, z.closed cb, hz, put_mem_self _ _ _, ⟨rfl, rfl, rfl, fun _ => rfl⟩,
        by simp [sweepFrom]⟩
    · exact ⟨y, y, hy, (put_mem_of_ne _ hts _).trans hy, ⟨rfl, rfl, rfl, fun _ => rfl⟩,
        by simp [sweepFrom, hts, has_live hy]⟩
  marks := closedWorld_closingsOf cb

end World

/-- The outcome in a well-formed world. -/
theorem World.WF.cascadeExact_iff (hw : w.WF) (hl : w.inLooping = true) (hz : w.mem s = .live z)
    (ht : z.type = .server) (he : z.eof = false) :
    w.CascadeExact s cb passes ↔ w.CascadeFits s passes := by
  have howes := hw.owes hz ht
  have hself : (w.closedWorld s z cb).mem s = .live (z.closed cb) := World.put_mem_self _ _ _
  have hcount : ∀ t, (w.sweepFrom s).marks t + (w.ownsOpen s t).toNat =
      w.closingsOf t + if t = s ∨ w.ownsOpen s t = true then 1 else 0 := by
    intro t
    by_cases hts : t = s
    · subst hts
      simp [World.sweepFrom, World.ownsOpen_of_server hz ht]
    · cases h : w.ownsOpen s t <;> simp [World.sweepFrom, hts]
  -- the socket is listed, since its descriptor fits
  have hpending : World.InRange z.fd → ¬ (w.sweepFrom s).Clear ∧ (w.closedWorld s z cb).WF := by
    intro hfd
    have hn := hw.linked_of_open hz he hfd.1
    refine ⟨fun hclear => ?_, hw.closedWorld hz hn cb⟩
    have := hclear s (hw.mem_socks hz hn)
    simp [World.sweepFrom] at this
  have hfits : w.roll.fits s = true ↔ World.InRange z.fd := by
    simp [World.roll, World.has_live hz]
  constructor
  · rintro ⟨w₂, w₃, hclose, hdrain, hexact⟩
    obtain ⟨y, hy, -, hfd, rfl⟩ := (zsocketCloseWith_looping hl).mp hclose
    obtain rfl : z = y := Slot.live.inj (hz.symm.trans hy)
    obtain ⟨hclear, hw₂⟩ := hpending hfd
    obtain ⟨st, hst, htracks⟩ := World.Tracks.of_drained hdrain (hw.tracks hz) hw₂ hl
    refine ⟨hfits.mpr hfd, (Roll.drains_iff_matched howes hclear).mp ⟨st, hst, fun t => ?_⟩⟩
    rw [← htracks.marks t, hexact t, hcount t]
  · rintro ⟨hfd, hmatched⟩
    rw [hfits] at hfd
    obtain ⟨hclear, hw₂⟩ := hpending hfd
    obtain ⟨st, hst, hmarks⟩ := (Roll.drains_iff_matched howes hclear).mpr hmatched
    obtain ⟨w₃, hdrain, htracks⟩ := World.Tracks.to_drained hst (hw.tracks hz) hw₂ hl
    refine ⟨_, w₃, (zsocketCloseWith_looping hl).mpr ⟨z, hz, he, hfd, rfl⟩, hdrain, fun t => ?_⟩
    rw [htracks.marks t, hmarks t, hcount t]

/-! ## Where the port decides rightly -/

/-- **A server alone on its port** takes its connections along and nothing else, if no other socket
is EOF, nothing times out, and the descriptors fit an `fd_set`. -/
theorem World.WF.cascadeFits_of_alone (hw : w.WF) (hz : w.mem s = .live z) (ht : z.type = .server)
    (hs : s ∈ w.socks) (hfits : ∀ t ∈ w.socks, ∀ y, w.mem t = .live y → World.InRange y.fd)
    (hquiet : ∀ t ∈ w.socks, t ≠ s → ∀ y, w.mem t = .live y →
      y.eof = false ∧ ∀ n, y.stale (passes n t).now = false)
    (hport : ∀ t ∈ w.socks, t ≠ s → ∀ y, w.mem t = .live y →
      (w.ownsOpen s t = true ↔ y.laddr.sinPort = z.laddr.sinPort)) : w.CascadeFits s passes := by
  have hlive : ∀ t ∈ w.socks, ∃ y, w.mem t = .live y := fun t ht =>
    (hw.live_of_mem ht).imp fun _ hy => hy.1
  have hmarked : ∀ t ∈ w.socks, (w.sweepFrom s).marked t = true → t = s := by
    intro t ht hm
    by_contra hne
    obtain ⟨y, hy⟩ := hlive t ht
    simp [World.sweepFrom, hne, World.has_live hy, (hquiet t ht hne y hy).1] at hm
  have hfresh : ∀ n, ∀ t ∈ w.socks, w.expired (passes n) t = false := by
    intro n t htl
    obtain ⟨y, hy⟩ := hlive t htl
    by_cases hne : t = s
    · exact World.expired_of_server (hne ▸ hz) ht
    · exact (World.has_live hy).trans ((hquiet t htl hne y hy).2 n)
  -- a socket is struck by `s` exactly if it is owned
  have hkey : ∀ t ∈ w.socks, t ≠ s → (w.ownsOpen s t = true ↔ w.roll.key s = w.roll.key t) := by
    intro t ht hne
    obtain ⟨y, hy⟩ := hlive t ht
    simp only [World.roll, hz, hy]
    exact (hport t ht hne y hy).trans eq_comm
  refine ⟨?_, fun a ha => ⟨fun hx => ?_, fun b hb hstruck => ?_⟩, fun _ b hb _ hx => ?_,
    fun b hb hdue => .inl ?_⟩
  · exact (World.has_live hz).trans (decide_eq_true (hfits s hs z hz))
  · rw [hfresh 0 a ha] at hx
    cases hx
  · obtain ⟨-, hm, hne, hk⟩ := Roll.struck_single.mp hstruck
    obtain rfl := hmarked a ha hm
    obtain ⟨y, hy⟩ := hlive b hb
    exact .inr ⟨(hkey b hb hne.symm).mpr hk,
      (World.has_live hy).trans (decide_eq_true (hfits b hb y hy))⟩
  · rw [hfresh 1 b hb] at hx
    cases hx
  · have hne : b ≠ s := by
      rintro rfl
      rw [World.ownsOpen_of_server hz ht] at hdue
      cases hdue
    exact Roll.struck_eq_true.mpr ⟨s, hs, (World.has_live hz).trans (decide_eq_true ht),
      by simp [World.sweepFrom], hne.symm, (hkey b hb hne).mp hdue⟩

/-- **When closing a server closes its connections and nothing else**: in every world the program
can look at inside the loop. -/
theorem server_cascade_exact_iff (h : Sys.Seen Machine.anyStep w) (hl : w.inLooping = true)
    (hz : w.mem s = .live z) (ht : z.type = .server) (he : z.eof = false) :
    w.CascadeExact s cb passes ↔ w.CascadeFits s passes :=
  h.wf.cascadeExact_iff hl hz ht he

/-- A server with one connection on its port, closed in the loop, takes that connection along. -/
theorem server_cascade_exact_one : ∃ w : World, w.socks = [1, 0] ∧ w.ownsOpen 0 1 = true ∧
    w.CascadeExact 0 none fun _ _ => ⟨0, []⟩ := by
  obtain ⟨c, r, h⟩ := Machine.Reach.of_leadsTo (M := zio)
    (P := fun c => decide (c.world.socks = [1, 0]) && c.world.inLooping && c.world.ownsOpen 0 1 &&
      (c.world.check 0 fun z => decide (z.eof = false ∧ z.type = .server ∧ World.InRange z.fd ∧
        z.laddr.sinPort = 8000)) &&
      c.world.check 1 fun y => decide (y.eof = false ∧ y.stale 0 = false ∧ World.InRange y.fd ∧
        y.laddr.sinPort = 8000)) .init
    (show zio.leadsTo Machine.anyStep _ (acceptOne 8000 ++ [.loop 1000 (.ready {3} ∅)])
      zio.init = true by
      decide +kernel)
  simp only [Bool.and_eq_true, decide_eq_true_eq] at h
  obtain ⟨⟨⟨⟨hsocks, hl⟩, hown⟩, hserver⟩, hconn⟩ := h
  have hw := (Sys.sound r).wf
  obtain ⟨z, hz, -⟩ := hw.live_of_mem (s := 0) (by rw [hsocks]; simp)
  obtain ⟨he, htype, hfd, hport⟩ := of_decide_eq_true (World.of_check hserver hz)
  have hother : ∀ t ∈ c.world.socks, t ≠ 0 → ∀ y, c.world.mem t = .live y →
      t = 1 ∧ y.eof = false ∧ y.stale 0 = false ∧ World.InRange y.fd ∧ y.laddr.sinPort = 8000 := by
    intro t ht ht0 y hy
    rw [hsocks] at ht
    obtain rfl : t = 1 := by simpa [ht0] using ht
    exact ⟨rfl, of_decide_eq_true (World.of_check hconn hy)⟩
  refine ⟨c.world, hsocks, hown, (server_cascade_exact_iff (.between r) hl hz htype he).mpr ?_⟩
  refine hw.cascadeFits_of_alone hz htype (by rw [hsocks]; simp) (fun t ht y hy => ?_)
    (fun t ht ht0 y hy => ?_) fun t ht ht0 y hy => ?_
  · by_cases ht0 : t = 0
    · subst ht0
      obtain rfl : z = y := Slot.live.inj (hz.symm.trans hy)
      exact hfd
    · exact (hother t ht ht0 y hy).2.2.2.1
  · obtain ⟨-, hye, hys, -⟩ := hother t ht ht0 y hy
    exact ⟨hye, fun _ => hys⟩
  · obtain ⟨rfl, -, -, -, hyp⟩ := hother t ht ht0 y hy
    rw [hyp, hport]
    exact iff_of_true hown rfl

/-! ## Where it does not -/

/-- **A server takes an open server with its port along**, whatever the passes are answered. -/
theorem cascade_takes_server (h : Sys.Seen Machine.anyStep w) (hl : w.inLooping = true)
    (hz : w.mem s = .live z) (ht : z.type = .server) (he : z.eof = false) (hs : s ∈ w.socks)
    (htl : t ∈ w.socks) (hts : t ≠ s) (hy : w.mem t = .live y) (hyt : y.type = .server)
    (hye : y.eof = false) (hp : y.laddr.sinPort = z.laddr.sinPort) :
    ¬ w.CascadeExact s cb passes := by
  rw [h.wf.cascadeExact_iff hl hz ht he]
  rintro ⟨-, hmatched⟩
  have hstruck : w.roll.struck (w.sweepFrom s).marked [s] t = true := by
    refine Roll.struck_single.mpr ⟨(World.has_live hz).trans (decide_eq_true ht),
      by simp [World.sweepFrom], hts.symm, ?_⟩
    simp only [World.roll, hz, hy, hp]
  obtain ⟨-, hoff⟩ | ⟨hdue, -⟩ := (hmatched.admits s hs).strikes t htl hstruck
  · rw [World.expired_of_server hy hyt, Bool.or_false] at hoff
    simp [World.sweepFrom, hts, World.has_live hy, hye] at hoff
  · rw [World.ownsOpen_of_server hy hyt] at hdue
    cases hdue

/-- **A server misses a connection with another local port**, if no other socket is EOF and the
connection does not time out. -/
theorem cascade_misses_connection (h : Sys.Seen Machine.anyStep w) (hl : w.inLooping = true)
    (hz : w.mem s = .live z) (ht : z.type = .server) (he : z.eof = false)
    (hopen : ∀ u ∈ w.socks, u ≠ s → ∀ x, w.mem u = .live x → x.eof = false)
    (hown : w.ownsOpen s t = true) (hy : w.mem t = .live y)
    (hfresh : ∀ n, y.stale (passes n t).now = false) (hp : y.laddr.sinPort ≠ z.laddr.sinPort) :
    ¬ w.CascadeExact s cb passes := by
  have hw := h.wf
  rw [hw.cascadeExact_iff hl hz ht he]
  rintro ⟨-, hmatched⟩
  have hexpired : ∀ n, w.expired (passes n) t = false :=
    fun n => (World.has_live hy).trans (hfresh n)
  obtain hstruck | hx | ⟨-, hx⟩ := hmatched.settled t ((hw.owes hz ht).listed t hown) hown
  · obtain ⟨a, ha, -, hm, -, hk⟩ := Roll.struck_eq_true.mp hstruck
    obtain rfl : a = s := by
      by_contra hne
      obtain ⟨x, hx, -⟩ := hw.live_of_mem (s := a) ha
      simp [World.sweepFrom, hne, World.has_live hx, hopen a ha hne x hx] at hm
    simp only [World.roll, hz, hy] at hk
    exact hp hk.symm
  · rw [hexpired 0] at hx
    cases hx
  · rw [hexpired 1] at hx
    cases hx

/-- Two servers listen on one port number at different addresses, and the first is closed in the
loop. -/
theorem server_cascade_shared : ∃ (w : World) (z y : ZSocket), Sys.Seen Machine.anyStep w ∧
    w.inLooping = true ∧ w.mem 0 = .live z ∧ z.type = .server ∧ z.eof = false ∧
    w.mem 1 = .live y ∧ y.type = .server ∧ y.laddr ≠ z.laddr ∧
    ∀ passes, ¬ w.CascadeExact 0 none passes := by
  obtain ⟨c, r, h⟩ := Machine.Reach.of_leadsTo (M := zio)
    (P := fun c => decide (c.world.socks = [1, 0]) && c.world.inLooping &&
      (c.world.check 0 fun z => decide (z.eof = false ∧ z.type = .server ∧ z.laddr = ⟨1, 8000⟩)) &&
      c.world.check 1 fun y => decide (y.eof = false ∧ y.type = .server ∧ y.laddr = ⟨2, 8000⟩))
    .init
    (show zio.leadsTo Machine.anyStep _
      [.call (.init 0),
        .call (.listen 0 ⟨1, 8000⟩ (some 0) ⟨some 3, true⟩),
        .call (.init 1),
        .call (.listen 1 ⟨2, 8000⟩ (some 0) ⟨some 4, true⟩),
        .loop 1000 (.ready {3} ∅)] zio.init = true by decide +kernel)
  simp only [Bool.and_eq_true, decide_eq_true_eq] at h
  obtain ⟨⟨⟨hsocks, hl⟩, hfirst⟩, hsecond⟩ := h
  have hw := (Sys.sound r).wf
  have h0 : 0 ∈ c.world.socks := by rw [hsocks]; simp
  have h1 : 1 ∈ c.world.socks := by rw [hsocks]; simp
  obtain ⟨z, hz, -⟩ := hw.live_of_mem h0
  obtain ⟨y, hy, -⟩ := hw.live_of_mem h1
  obtain ⟨he, ht, hzp⟩ := of_decide_eq_true (World.of_check hfirst hz)
  obtain ⟨hye, hyt, hyp⟩ := of_decide_eq_true (World.of_check hsecond hy)
  refine ⟨c.world, z, y, .between r, hl, hz, ht, he, hy, hyt, by rw [hyp, hzp]; decide,
    fun passes => ?_⟩
  exact cascade_takes_server (.between r) hl hz ht he h0 h1 (by decide) hy hyt hye
    (by rw [hyp, hzp])

end LibZio
