import LibZio.Foundation.SweepDrain
import LibZio.Zsocket.Counters
import LibZio.Zsocket.Draining

/-! # The cascade as a sweep

The deferred closes as a sweep over the list: the closed sockets are the marked ones, a server is a
chief whose key is its local port, and a connection expires when its timeout has run out. While a
world `Tracks` a sweep, an iteration of `zsocket_do_close` returns exactly if the visit of the sweep
does, and then the two still agree; so passes until nothing is EOF are passes until nothing is
marked. -/

namespace LibZio

variable {w w' v v' : World} {s t pos : Sid} {y z : ZSocket} {io : CloseIo}

/-! ## The effect of a cascade -/

/-- A close in the loop counts once for the socket closed. -/
theorem closedWorld_closingsOf (cb : Option Cb) (t : Sid) :
    (w.closedWorld s z cb).closingsOf t = w.closingsOf t + (decide (t = s)).toNat := by
  by_cases hts : t = s
  · subst hts
    rw [decide_eq_true rfl]
    exact List.countP_cons_of_pos (by simp)
  · rw [decide_eq_false hts]
    exact List.countP_cons_of_neg (by simpa using Ne.symm hts)

/-- The fields of a socket after a cascade of the port. -/
def ZSocket.cascaded (port : UInt16) (z : ZSocket) : ZSocket :=
  if z.laddr.sinPort = port then z.closed none else z

theorem ZSocket.cascaded_node (port : UInt16) (z : ZSocket) : (z.cascaded port).node = z.node := by
  rw [ZSocket.cascaded]
  by_cases hp : z.laddr.sinPort = port
  · rw [if_pos hp]; rfl
  · rw [if_neg hp]

theorem ZSocket.cascaded_fd (port : UInt16) (z : ZSocket) : (z.cascaded port).fd = z.fd := by
  rw [ZSocket.cascaded]
  by_cases hp : z.laddr.sinPort = port
  · rw [if_pos hp]; rfl
  · rw [if_neg hp]

/-- **What a cascade that returns has done**: the sockets with the port were open, and each is
closed once. -/
theorem cascade_effect {port : UInt16} {l : List Sid} (hl : w.inLooping = true) (hd : l.Nodup)
    (h : cascade port l w = .ok w') :
    (∀ t ∈ l, ∃ z, w.mem t = .live z ∧ w'.mem t = .live (z.cascaded port) ∧
        (z.laddr.sinPort = port → z.eof = false ∧ World.InRange z.fd)) ∧
      (∀ t ∉ l, w'.mem t = w.mem t) ∧
      ∀ t, w'.closingsOf t = w.closingsOf t +
        (decide (t ∈ l) && w.has t fun z => decide (z.laddr.sinPort = port)).toNat := by
  induction l generalizing w with
  | nil =>
      cases h
      exact ⟨by simp, fun _ _ => rfl, by simp⟩
  | cons pos l ih =>
      rw [cascade, List.foldlM_cons] at h
      obtain ⟨w₁, hb, h⟩ := bind_eq_ok.mp h
      obtain ⟨hpos, hd⟩ := List.nodup_cons.mp hd
      obtain ⟨z, hz, hcase⟩ := (cascadeBody_looping hl).mp hb
      -- the first step concerns `pos` alone
      have hfirst : w₁.inLooping = true ∧ w₁.mem pos = .live (z.cascaded port) ∧
          (∀ t, t ≠ pos → w₁.mem t = w.mem t) ∧
          (z.laddr.sinPort = port → z.eof = false ∧ World.InRange z.fd) ∧
          ∀ t, w₁.closingsOf t =
            w.closingsOf t + (decide (t = pos) && decide (z.laddr.sinPort = port)).toNat := by
        obtain ⟨hp, rfl⟩ | ⟨hp, he, hfd, rfl⟩ := hcase
        · exact ⟨hl, by rw [hz, ZSocket.cascaded, if_neg hp], fun _ _ => rfl,
            fun hc => absurd hc hp, by simp [hp]⟩
        · exact ⟨hl, by rw [ZSocket.cascaded, if_pos hp]; exact World.put_mem_self _ _ _,
            fun t ht => World.put_mem_of_ne _ ht _, fun _ => ⟨he, hfd⟩,
            fun t => by rw [closedWorld_closingsOf]; simp [hp]⟩
      obtain ⟨hl₁, hself, hother, hguard, hcount⟩ := hfirst
      obtain ⟨hin, hout, hcount'⟩ := ih hl₁ hd h
      refine ⟨fun t ht => ?_, fun t ht => ?_, fun t => ?_⟩
      · obtain rfl | ht := List.mem_cons.mp ht
        · exact ⟨z, hz, (hout t hpos).trans hself, hguard⟩
        · have hne : t ≠ pos := fun hc => hpos (hc ▸ ht)
          obtain ⟨y, hy, hy', hyguard⟩ := hin t ht
          exact ⟨y, (hother t hne).symm.trans hy, hy', hyguard⟩
      · rw [List.mem_cons, not_or] at ht
        exact (hout t ht.2).trans (hother t ht.1)
      · rw [hcount' t, hcount t]
        by_cases hne : t = pos
        · subst hne
          rw [World.has_live hz]
          simp [hpos]
        · rw [World.has, World.has, hother t hne]
          simp [hne]

/-- **A cascade returns** if the sockets with the port are open and in range. -/
theorem cascade_total {port : UInt16} {l : List Sid} (hl : w.inLooping = true) (hd : l.Nodup)
    (hlive : ∀ t ∈ l, ∃ z, w.mem t = .live z ∧
      (z.laddr.sinPort = port → z.eof = false ∧ World.InRange z.fd)) :
    ∃ w', cascade port l w = .ok w' := by
  induction l generalizing w with
  | nil => exact ⟨w, rfl⟩
  | cons pos l ih =>
      obtain ⟨hpos, hd⟩ := List.nodup_cons.mp hd
      obtain ⟨z, hz, hguard⟩ := hlive pos (by simp)
      obtain ⟨w₁, hb, hl₁, hother⟩ : ∃ w₁, cascadeBody (fun _ w => .ok w) port pos w = .ok w₁ ∧
          w₁.inLooping = true ∧ ∀ t, t ≠ pos → w₁.mem t = w.mem t := by
        by_cases hp : z.laddr.sinPort = port
        · obtain ⟨he, hfd⟩ := hguard hp
          exact ⟨_, (cascadeBody_looping hl).mpr ⟨z, hz, .inr ⟨hp, he, hfd, rfl⟩⟩, hl,
            fun t ht => World.put_mem_of_ne _ ht _⟩
        · exact ⟨_, (cascadeBody_looping hl).mpr ⟨z, hz, .inl ⟨hp, rfl⟩⟩, hl, fun _ _ => rfl⟩
      obtain ⟨w', hrun⟩ := ih hl₁ hd fun t ht => by
        rw [hother t fun hc => hpos (hc ▸ ht)]
        exact hlive t (by simp [ht])
      exact ⟨w', by rw [cascade, List.foldlM_cons, hb]; exact hrun⟩

/-- The release of a socket is no close. -/
theorem reapedWorld_closingsOf (t : Sid) : (v.reapedWorld pos z).closingsOf t = v.closingsOf t := by
  unfold World.reapedWorld
  by_cases ht : z.type = .connection
  · rw [if_pos ht]
    rfl
  · rw [if_neg ht]
    rfl

/-- **What the teardown of a closed socket has done.** -/
theorem reap_effect (hv : v.WF) (hl : v.inLooping = true) (h : reap pos z v = .ok v') :
    v'.socks = v.socks.erase pos ∧
      (∀ t ∈ v.socks.erase pos, ∃ y, v.mem t = .live y ∧
        v'.mem t = .live (if z.type = .server then y.cascaded z.laddr.sinPort else y) ∧
        (z.type = .server → y.laddr.sinPort = z.laddr.sinPort →
          y.eof = false ∧ World.InRange y.fd)) ∧
      ∀ t, v'.closingsOf t = v.closingsOf t + (decide (z.type = .server) &&
        (decide (t ∈ v.socks.erase pos) &&
          v.has t fun y => decide (y.laddr.sinPort = z.laddr.sinPort))).toNat := by
  refine ⟨(reap_frame hv.roster hl h).2.2, ?_⟩
  obtain ⟨v₁, hv₁, rfl⟩ := reap_eq_ok.mp h
  obtain ⟨-, -, hmem⟩ := @reapedWorld_frame v₁ pos z.unlinked
  have hcount := @reapedWorld_closingsOf v₁ pos z.unlinked
  have hne : ∀ t ∈ v.socks.erase pos, t ≠ pos := fun t ht => (hv.nodup.mem_erase_iff.mp ht).1
  have hother : ∀ t, t ≠ pos → (v.unlinkedWorld pos z).mem t = v.mem t :=
    fun t ht => World.put_mem_of_ne _ ht _
  unfold unlinkCascade at hv₁
  by_cases hs : z.type = .server
  · rw [if_pos hs] at hv₁
    -- the other sockets are in the world of the cascade as they were before the unlinking
    obtain ⟨hin, -, hclosings⟩ :=
      cascade_effect (w := v.unlinkedWorld pos z) hl (hv.nodup.erase pos) hv₁
    refine ⟨fun t ht => ?_, fun t => ?_⟩
    · obtain ⟨y, hy, hy', hguard⟩ := hin t ht
      exact ⟨y, (hother t (hne t ht)).symm.trans hy,
        (hmem t (hne t ht)).trans (by rw [if_pos hs]; exact hy'), fun _ => hguard⟩
    · rw [hcount t, hclosings t, decide_eq_true hs, Bool.true_and]
      by_cases ht : t ∈ v.socks.erase pos
      · rw [World.has, World.has, hother t (hne t ht)]
        rfl
      · rw [decide_eq_false ht]
        rfl
  · rw [if_neg hs] at hv₁
    cases hv₁
    refine ⟨fun t ht => ?_, fun t => ?_⟩
    · obtain ⟨y, hy, -⟩ := hv.live_of_mem (List.mem_of_mem_erase ht)
      exact ⟨y, hy, by rw [if_neg hs, hmem t (hne t ht), hother t (hne t ht), hy],
        fun hc => absurd hc hs⟩
    · rw [hcount t, decide_eq_false hs]
      rfl

/-- **The teardown of a closed socket returns** if the sockets it cascades to are open and in
range. -/
theorem reap_total (hv : v.WF) (hl : v.inLooping = true)
    (h : z.type = .server → ∀ t ∈ v.socks.erase pos, ∀ y, v.mem t = .live y →
      y.laddr.sinPort = z.laddr.sinPort → y.eof = false ∧ World.InRange y.fd) :
    ∃ v', reap pos z v = .ok v' := by
  by_cases hs : z.type = .server
  · obtain ⟨v₁, hrun⟩ : ∃ v₁, cascade z.laddr.sinPort (v.socks.erase pos) (v.unlinkedWorld pos z) =
        .ok v₁ := by
      refine cascade_total hl (hv.nodup.erase pos) fun t ht => ?_
      have hne : t ≠ pos := (hv.nodup.mem_erase_iff.mp ht).1
      obtain ⟨y, hy, -⟩ := hv.live_of_mem (List.mem_of_mem_erase ht)
      exact ⟨y, (World.put_mem_of_ne _ hne _).trans hy, h hs t ht y hy⟩
    exact ⟨_, reap_eq_ok.mpr ⟨v₁, by rw [unlinkCascade, if_pos hs]; exact hrun, rfl⟩⟩
  · exact ⟨_, reap_eq_ok.mpr ⟨_, by rw [unlinkCascade, if_neg hs], rfl⟩⟩

/-! ## Worlds that track a sweep -/

/-- The sockets as a sweep sees them. -/
def World.roll (w : World) : Roll Sid UInt16 where
  key := fun t => match w.mem t with
    | .live z => z.laddr.sinPort
    | _ => 0
  chief := fun t => w.has t fun z => decide (z.type = .server)
  fits := fun t => w.has t fun z => decide (World.InRange z.fd)

/-- The connections whose timeout has run out when a pass asks for the time. -/
def World.expired (w : World) (io : Sid → CloseIo) (t : Sid) : Bool :=
  w.has t fun z => z.stale (io t).now

/-- `z` has the fields of `y` that decide what the deferred closes do, its being EOF apart. -/
structure ZSocket.Alike (y z : ZSocket) : Prop where
  fd : z.fd = y.fd
  type : z.type = y.type
  laddr : z.laddr = y.laddr
  stale : ∀ now, z.stale now = y.stale now

/-- The world `v` is as far as the sweep `st`, for sockets that are as in `w`. -/
structure World.Tracks (w v : World) (st : Sweep Sid) : Prop where
  socks : v.socks = st.listed
  same : ∀ t ∈ v.socks, ∃ y z, w.mem t = .live y ∧ v.mem t = .live z ∧ y.Alike z ∧
    st.marked t = z.eof
  marks : ∀ t, v.closingsOf t = st.marks t

namespace World.Tracks

variable {st st' : Sweep Sid}

/-- What the sweep knows of a listed socket. -/
theorem view (h : w.Tracks v st) (ht : t ∈ v.socks) (hz : v.mem t = .live z) :
    w.roll.key t = z.laddr.sinPort ∧ w.roll.chief t = decide (z.type = .server) ∧
      w.roll.fits t = decide (World.InRange z.fd) ∧ st.marked t = z.eof ∧
      ∀ passes, w.expired passes t = z.stale (passes t).now := by
  obtain ⟨y, x, hy, hx, alike, hm⟩ := h.same t ht
  obtain rfl : z = x := Slot.live.inj (hz.symm.trans hx)
  refine ⟨?_, ?_, ?_, hm, fun passes => ?_⟩
  · simp only [World.roll, hy, alike.laddr]
  · simp only [World.roll, has_live hy, alike.type]
  · simp only [World.roll, has_live hy, alike.fd]
  · rw [World.expired, has_live hy, alike.stale]

/-- The mates of a server are the other listed sockets with its port. -/
theorem mate (h : w.Tracks v st) (hpos : pos ∈ v.socks) (hz : v.mem pos = .live z) (t : Sid) :
    w.roll.mate (v.socks.erase pos) pos t = (decide (t ∈ v.socks.erase pos) &&
      v.has t fun y => decide (y.laddr.sinPort = z.laddr.sinPort)) := by
  rw [Roll.mate]
  by_cases ht : t ∈ v.socks.erase pos
  · obtain ⟨-, y, -, hy, -⟩ := h.same t (List.mem_of_mem_erase ht)
    rw [(h.view hpos hz).1, (h.view (List.mem_of_mem_erase ht) hy).1, has_live hy]
    simp only [eq_comm]
  · simp [ht]

/-- **The teardown of a closed socket is a removal of the sweep.** -/
theorem of_reap (h : w.Tracks v st) (hv : v.WF) (hl : v.inLooping = true) (hpos : pos ∈ v.socks)
    (hz : v.mem pos = .live z) (hreap : reap pos z v = .ok v') :
    ∃ st', w.roll.remove pos st = some st' ∧ w.Tracks v' st' := by
  obtain ⟨hsocks, hmem, hcount⟩ := reap_effect hv hl hreap
  obtain ⟨-, hchief, -, -, -⟩ := h.view hpos hz
  have hdrop : (st.drop pos).listed = v.socks.erase pos := by rw [h.socks]; rfl
  by_cases hs : z.type = .server
  · rw [decide_eq_true hs] at hchief
    refine ⟨_, (Roll.remove_chief hchief).mpr ⟨fun b hb hk => ?_, rfl⟩, hsocks.trans hdrop.symm,
      fun t ht => ?_, fun t => ?_⟩
    · rw [hdrop] at hb
      obtain ⟨y, hy, -, hguard⟩ := hmem b hb
      obtain ⟨hkey, -, hfits, hm, -⟩ := h.view (List.mem_of_mem_erase hb) hy
      rw [(h.view hpos hz).1, hkey] at hk
      obtain ⟨hye, hfd⟩ := hguard hs hk.symm
      -- the cascade has returned, so that each mate was open and in range
      exact ⟨hfits.trans (decide_eq_true hfd), hm.trans hye⟩
    · rw [hsocks] at ht
      obtain ⟨y, hy, hy', -⟩ := hmem t ht
      obtain ⟨x, y', hx, hyy, alike, hm⟩ := h.same t (List.mem_of_mem_erase ht)
      obtain rfl : y = y' := Slot.live.inj (hy.symm.trans hyy)
      rw [if_pos hs] at hy'
      refine ⟨x, _, hx, hy', ?_, ?_⟩
      · unfold ZSocket.cascaded
        split
        · exact ⟨alike.fd, alike.type, alike.laddr, alike.stale⟩
        · exact alike
      -- a socket is marked afterwards if it was before or is a mate
      · change (st.marked t || w.roll.mate (st.drop pos).listed pos t) = _
        rw [hdrop, h.mate hpos hz, hm, decide_eq_true ht, Bool.true_and, has_live hy,
          ZSocket.cascaded]
        by_cases hp : y.laddr.sinPort = z.laddr.sinPort
        · rw [if_pos hp, decide_eq_true hp, Bool.or_true, ZSocket.closed_eof]
        · rw [if_neg hp, decide_eq_false hp, Bool.or_false]
    · rw [hcount t, h.marks t, decide_eq_true hs, Bool.true_and, ← h.mate hpos hz, ← hdrop]
      rfl
  · rw [decide_eq_false hs] at hchief
    refine ⟨_, Roll.remove_follower hchief, hsocks.trans hdrop.symm, fun t ht => ?_, fun t => ?_⟩
    · rw [hsocks] at ht
      obtain ⟨y, hy, hy', -⟩ := hmem t ht
      obtain ⟨x, y', hx, hyy, alike, hm⟩ := h.same t (List.mem_of_mem_erase ht)
      obtain rfl : y = y' := Slot.live.inj (hy.symm.trans hyy)
      rw [if_neg hs] at hy'
      exact ⟨x, y, hx, hy', alike, hm⟩
    · rw [hcount t, h.marks t, decide_eq_false hs]
      rfl

/-- **A removal of the sweep is a teardown** that returns. -/
theorem to_reap (h : w.Tracks v st) (hv : v.WF) (hl : v.inLooping = true) (hpos : pos ∈ v.socks)
    (hz : v.mem pos = .live z) (hremove : w.roll.remove pos st = some st') :
    ∃ v', reap pos z v = .ok v' ∧ w.Tracks v' st' := by
  obtain ⟨hkey, hchief, -, -, -⟩ := h.view hpos hz
  obtain ⟨v', hreap⟩ : ∃ v', reap pos z v = .ok v' := by
    refine reap_total hv hl fun hs b hb y hy hp => ?_
    rw [decide_eq_true hs] at hchief
    obtain ⟨hmates, -⟩ := (Roll.remove_chief hchief).mp hremove
    obtain ⟨hkey', -, hfits, hm, -⟩ := h.view (List.mem_of_mem_erase hb) hy
    obtain ⟨hf, ho⟩ := hmates b (by rw [Sweep.drop, ← h.socks]; exact hb) (by rw [hkey, hkey', hp])
    exact ⟨hm.symm.trans ho, of_decide_eq_true (hfits.symm.trans hf)⟩
  obtain ⟨st'', hst, htracks⟩ := h.of_reap hv hl hpos hz hreap
  obtain rfl : st' = st'' := Option.some.inj (hremove.symm.trans hst)
  exact ⟨v', hreap, htracks⟩

/-- The close by a timeout marks the socket. -/
theorem timedOut (h : w.Tracks v st) (hpos : pos ∈ v.socks) (hz : v.mem pos = .live z) :
    w.Tracks (v.timedOutWorld pos z) (st.mark fun t => decide (t = pos)) where
  socks := h.socks
  same := fun t ht => by
    obtain ⟨x, y, hx, hy, alike, hm⟩ := h.same t ht
    by_cases hne : t = pos
    · subst hne
      obtain rfl : z = y := Slot.live.inj (hz.symm.trans hy)
      refine ⟨x, z.timedOut, hx, World.put_mem_self _ _ _,
        ⟨alike.fd, alike.type, alike.laddr, alike.stale⟩, ?_⟩
      rw [show z.timedOut.eof = true from ZSocket.closed_eof _ _]
      simp [Sweep.mark]
    · refine ⟨x, y, hx, ?_, alike, ?_⟩
      · exact (World.put_mem_of_ne _ hne _).trans ((World.put_mem_of_ne _ hne _).trans hy)
      · simpa [Sweep.mark, hne] using hm
  marks := fun t => by
    rw [World.timedOutWorld, closedWorld_closingsOf]
    exact congrArg (· + _) (h.marks t)

variable {passes : Sid → CloseIo}

/-- **An iteration of the deferred closes is a visit of the sweep.** -/
theorem of_visit (h : w.Tracks v st) (hv : v.WF) (hl : v.inLooping = true) (hpos : pos ∈ v.socks)
    (hvisit : doCloseVisit pos (passes pos) v = .ok v') :
    ∃ st', w.roll.visit (w.expired passes) st pos = some st' ∧ w.Tracks v' st' := by
  obtain ⟨z, hz, hn⟩ := hv.live_of_mem hpos
  obtain ⟨-, -, hfits, hm, hexpired⟩ := h.view hpos hz
  replace hexpired := hexpired passes
  obtain ⟨hs, he, rfl⟩ | ⟨hs, he, hreap⟩ | ⟨hs, hfd, hreap⟩ :=
    (doCloseVisit_eq_ok hv hl hz hn).mp hvisit
  · exact ⟨st, Roll.visit_eq_some.mpr ⟨st, Roll.expire_fresh (hexpired.trans hs),
      .inr ⟨hm.trans he, rfl⟩⟩, h⟩
  · obtain ⟨st', hremove, h'⟩ := h.of_reap hv hl hpos hz hreap
    exact ⟨st', Roll.visit_eq_some.mpr ⟨st, Roll.expire_fresh (hexpired.trans hs),
      .inl ⟨hm.trans he, hremove⟩⟩, h'⟩
  · obtain ⟨st', hremove, h'⟩ := (h.timedOut hpos hz).of_reap (hv.timedOutWorld hz hn) hl hpos
      (World.put_mem_self _ _ _) hreap
    exact ⟨st', Roll.visit_eq_some.mpr ⟨_, (Roll.expire_eq_some (hexpired.trans hs)).mpr
      ⟨hfits.trans (decide_eq_true hfd), rfl⟩, .inl ⟨by simp [Sweep.mark], hremove⟩⟩, h'⟩

/-- **A visit of the sweep is an iteration of the deferred closes** that returns. -/
theorem to_visit (h : w.Tracks v st) (hv : v.WF) (hl : v.inLooping = true) (hpos : pos ∈ v.socks)
    (hvisit : w.roll.visit (w.expired passes) st pos = some st') :
    ∃ v', doCloseVisit pos (passes pos) v = .ok v' ∧ w.Tracks v' st' := by
  obtain ⟨z, hz, hn⟩ := hv.live_of_mem hpos
  obtain ⟨-, -, hfits, hm, hexpired⟩ := h.view hpos hz
  replace hexpired := hexpired passes
  obtain ⟨st₁, hexpire, hrest⟩ := Roll.visit_eq_some.mp hvisit
  cases hs : z.stale (passes pos).now with
  | false =>
      obtain rfl : st = st₁ :=
        Option.some.inj ((Roll.expire_fresh (hexpired.trans hs)).symm.trans hexpire)
      obtain ⟨hmarked, hremove⟩ | ⟨hmarked, rfl⟩ := hrest
      · have he := hm.symm.trans hmarked
        obtain ⟨v', hreap, h'⟩ := h.to_reap hv hl hpos hz hremove
        exact ⟨v', (doCloseVisit_eq_ok hv hl hz hn).mpr (.inr (.inl ⟨hs, he, hreap⟩)), h'⟩
      · exact ⟨v, (doCloseVisit_eq_ok hv hl hz hn).mpr (.inl ⟨hs, hm.symm.trans hmarked, rfl⟩), h⟩
  | true =>
      obtain ⟨hf, rfl⟩ := (Roll.expire_eq_some (hexpired.trans hs)).mp hexpire
      obtain ⟨-, hremove⟩ | ⟨hmarked, -⟩ := hrest
      · obtain ⟨v', hreap, h'⟩ := (h.timedOut hpos hz).to_reap (hv.timedOutWorld hz hn) hl hpos
          (World.put_mem_self _ _ _) hremove
        exact ⟨v', (doCloseVisit_eq_ok hv hl hz hn).mpr
          (.inr (.inr ⟨hs, of_decide_eq_true (hfits.symm.trans hf), hreap⟩)), h'⟩
      · simp [Sweep.mark] at hmarked

/-- A pass of the deferred closes is a pass of the sweep. -/
theorem of_pass (h : w.Tracks v st) (hv : v.WF) (hl : v.inLooping = true)
    (hpass : zsocketDoClose passes v = .ok v') :
    ∃ st', w.roll.pass (w.expired passes) st = some st' ∧ w.Tracks v' st' := by
  rw [Roll.pass, ← h.socks]
  refine (zsocketDoClose_rule
    (I := fun p _ u =>
      ∃ st', p.foldlM (w.roll.visit (w.expired passes)) st = some st' ∧ w.Tracks u st')
    hv hl ⟨st, rfl, h⟩ ?_ hpass).2.2
  rintro p pos l u u' p' hu hul - hs ⟨st₁, hrun, h₁⟩ hvisit
  obtain ⟨st₂, hv₂, h₂⟩ := h₁.of_visit hu hul (by rw [hs]; simp) hvisit
  refine ⟨st₂, ?_, h₂⟩
  rw [List.foldlM_append, hrun]
  simpa using hv₂

/-- A pass of the sweep is a pass of the deferred closes that returns. -/
theorem to_pass (h : w.Tracks v st) (hv : v.WF) (hl : v.inLooping = true)
    (hpass : w.roll.pass (w.expired passes) st = some st') :
    ∃ v', zsocketDoClose passes v = .ok v' ∧ v'.WF ∧ v'.inLooping = true ∧ w.Tracks v' st' := by
  rw [Roll.pass, ← h.socks] at hpass
  obtain ⟨v', hrun, hv', hl', st'', hst, h'⟩ := zsocketDoClose_total
    (I := fun _ l u => ∃ st₁, l.foldlM (w.roll.visit (w.expired passes)) st₁ = some st' ∧
      w.Tracks u st₁)
    hv hl ⟨st, hpass, h⟩ fun p pos l u p' hu hul _ hs ⟨st₁, hst₁, h₁⟩ => by
      rw [List.foldlM_cons] at hst₁
      obtain ⟨st₂, hv₂, hst₂⟩ := Option.bind_eq_some_iff.mp hst₁
      obtain ⟨u', hvisit, h₂⟩ := h₁.to_visit hu hul (by rw [hs]; simp) hv₂
      exact ⟨u', hvisit, st₂, hst₂, h₂⟩
  cases hst
  exact ⟨v', hrun, hv', hl', h'⟩

/-- Nothing is EOF exactly when nothing is marked. -/
theorem openAll_iff (h : w.Tracks v st) : v.OpenAll v.socks ↔ st.Clear := by
  rw [World.OpenAll, Sweep.Clear, ← h.socks]
  refine forall₂_congr fun t ht => ?_
  obtain ⟨-, z, -, hz, -, hm⟩ := h.same t ht
  rw [hm]
  exact ⟨fun hopen => hopen z hz, fun he y hy => Slot.live.inj (hz.symm.trans hy) ▸ he⟩

/-- **Passes until nothing is EOF are passes until nothing is marked.** -/
theorem of_drained {passes : ℕ → Sid → CloseIo} (hdrain : Drained passes v v') (h : w.Tracks v st)
    (hv : v.WF) (hl : v.inLooping = true) :
    ∃ st', w.roll.Drains (fun n => w.expired (passes n)) st st' ∧ w.Tracks v' st' := by
  induction hdrain generalizing st with
  | done hopen => exact ⟨st, .done (h.openAll_iff.mp hopen), h⟩
  | pass pending run _ ih =>
      obtain ⟨hu, hul⟩ := zsocketDoClose_keeps hv hl run
      obtain ⟨st₁, hrun, h₁⟩ := h.of_pass hv hl run
      obtain ⟨st', hrest, h'⟩ := ih h₁ hu hul
      exact ⟨st', .pass (fun hc => pending (h.openAll_iff.mpr hc)) hrun hrest, h'⟩

/-- Passes of the sweep until nothing is marked are passes until nothing is EOF. -/
theorem to_drained {passes : ℕ → Sid → CloseIo}
    (hdrain : w.roll.Drains (fun n => w.expired (passes n)) st st') (h : w.Tracks v st) (hv : v.WF)
    (hl : v.inLooping = true) : ∃ v', Drained passes v v' ∧ w.Tracks v' st' := by
  generalize hex : (fun n => w.expired (passes n)) = ex at hdrain
  induction hdrain generalizing v passes with
  | done clear => exact ⟨v, .done (h.openAll_iff.mpr clear), h⟩
  | pass pending run _ ih =>
      subst hex
      obtain ⟨u, hrun, hu, hul, h₁⟩ := h.to_pass hv hl run
      obtain ⟨v', hrest, h'⟩ := @ih _ (fun n => passes (n + 1)) h₁ hu hul rfl
      exact ⟨v', .pass (fun hc => pending (h.openAll_iff.mp hc)) hrun hrest, h'⟩

end World.Tracks

end LibZio
