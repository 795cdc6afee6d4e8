import LibZio.Zsocket.Cascade
import LibZio.Zsocket.FdRange

/-! # The deferred closes and the memory

What one iteration of `zsocket_do_close` does to the list, the memory, the descriptors and the
trace, and from it what a whole pass does: it visits the listed sockets once each, in order, tears
the EOF ones down once each and frees the connections among them, and leaves the others listed. An
iteration unlinks and frees the socket it visits and no other, and the cursor has its successor
already; so however the list is arranged, a pass reads no node that it has unlinked or freed
(`close_pass_disciplined`). -/

namespace LibZio

variable {w w' v v' : World} {s t pos : Sid} {y z : ZSocket} {io : Sid → CloseIo}

/-! ## Failures -/

/-- The failures of a pass that minds its memory: an assertion of the program fails, or a descriptor
does not fit into an `fd_set`. -/
def Fault.Orderly : Fault → Prop
  | .assert _ => True
  | .undefined .fdRange => True
  | _ => False

/-- Rewriting sockets without their descriptors, and unlinking some, keeps the listed descriptors in
range. -/
theorem World.FdsInRange.of_fd (h : w.FdsInRange) (same : ∀ t ∈ v.socks, ∀ y, v.mem t = .live y →
    t ∈ w.socks ∧ ∃ z, w.mem t = .live z ∧ z.fd = y.fd) : v.FdsInRange := by
  intro t ht y hy
  obtain ⟨ht, z, hz, hfd⟩ := same t ht y hy
  exact hfd ▸ h t ht z hz

/-- A close keeps the descriptors of the listed sockets. -/
theorem World.FdsInRange.closedWorld (h : w.FdsInRange) (hz : w.mem s = .live z) (cb : Option Cb) :
    (w.closedWorld s z cb).FdsInRange := by
  refine h.of_fd fun t ht y hy => ⟨ht, ?_⟩
  by_cases hts : t = s
  · subst hts
    cases (World.put_mem_self _ _ _).symm.trans hy
    exact ⟨z, hz, rfl⟩
  · exact ⟨y, (World.put_mem_of_ne _ hts _).symm.trans hy, rfl⟩

/-- Unlinking keeps the descriptors of the sockets that stay listed. -/
theorem World.FdsInRange.unlinkedWorld (h : w.FdsInRange) (hw : w.Roster) :
    (w.unlinkedWorld s z).FdsInRange := by
  refine h.of_fd fun t ht y hy => ?_
  obtain ⟨hne, ht⟩ := hw.nodup.mem_erase_iff.mp ht
  exact ⟨ht, y, (World.put_mem_of_ne _ hne _).symm.trans hy, rfl⟩

/-- A timeout close keeps the descriptors of the listed sockets. -/
theorem World.FdsInRange.timedOutWorld (h : w.FdsInRange) (hz : w.mem s = .live z) :
    (w.timedOutWorld s z).FdsInRange := by
  refine h.of_fd fun t ht y hy => ⟨ht, ?_⟩
  by_cases hts : t = s
  · subst hts
    cases (World.put_mem_self _ _ _).symm.trans hy
    exact ⟨z, hz, rfl⟩
  · have hput := (World.put_mem_of_ne _ hts _).symm.trans hy
    exact ⟨y, (World.put_mem_of_ne _ hts _).symm.trans hput, rfl⟩

section Failures

variable {P : Fault → Prop}

/-- A close in the loop fails by its assertion, or because the descriptor is out of range. -/
theorem zsocketCloseWith_fails {teardown : Sid → World → Res World} {cb : Option Cb}
    (hl : w.inLooping = true) (hz : w.mem s = .live z) (abort : ∀ a, P (.assert a))
    (range : ¬World.InRange z.fd → P (.undefined .fdRange)) :
    FailsIn P (zsocketCloseWith teardown s cb w) := by
  rw [zsocketCloseWith_eq hl hz]
  refine .ite (fun _ => .error (abort _)) fun _ => ?_
  by_cases hfd : World.InRange z.fd
  · rw [if_pos hfd]
    exact .ok _
  · rw [if_neg hfd]
    exact .error (range hfd)

/-- A cascade fails by an assertion, or because a listed descriptor is out of range. -/
theorem cascade_fails {port : UInt16} {l : List Sid} (hw : w.Roster) (hl : w.inLooping = true)
    (hmem : ∀ t ∈ l, t ∈ w.socks) (abort : ∀ a, P (.assert a))
    (range : ¬w.FdsInRange → P (.undefined .fdRange)) : FailsIn P (cascade port l w) := by
  induction l generalizing w with
  | nil => exact .ok w
  | cons pos l ih =>
      have hpos := hmem pos (List.mem_cons_self ..)
      obtain ⟨z, hz, -⟩ := hw.live pos hpos
      rw [cascade, List.foldlM_cons]
      refine FailsIn.bind ?_ fun w₁ hb => ?_
      · rw [cascadeBody, World.deref_eq_ok.mpr hz, ok_bind]
        by_cases hp : z.laddr.sinPort = port
        · rw [if_pos hp]
          exact zsocketCloseWith_fails hl hz abort fun hfd => range fun h => hfd (h pos hpos z hz)
        · rw [if_neg hp]
          exact .ok w
      · obtain ⟨⟨hw₁, hl₁⟩, hs₁⟩ := cascadeBody_roster ⟨hw, hl⟩ hb
        refine ih hw₁ hl₁ (fun t ht => hs₁ ▸ hmem t (List.mem_cons_of_mem _ ht)) fun hout =>
          range fun h => ?_
        obtain ⟨y, hy, ⟨-, rfl⟩ | ⟨-, -, -, rfl⟩⟩ := (cascadeBody_looping hl).mp hb
        · exact hout h
        · exact hout (h.closedWorld hy none)

/-- The teardown of a closed socket fails by an assertion, or because a listed descriptor is out of
range. -/
theorem reap_fails (hw : w.Roster) (hl : w.inLooping = true) (abort : ∀ a, P (.assert a))
    (range : ¬w.FdsInRange → P (.undefined .fdRange)) : FailsIn P (reap pos z w) := by
  refine FailsIn.bind (.ite (fun _ => ?_) fun _ => .ok _) fun _ _ => .ok _
  exact cascade_fails hw.unlinkedWorld hl (fun t ht => ht) abort
    fun hout => range fun h => hout (h.unlinkedWorld hw)

/-- **How an iteration of `zsocket_do_close` fails**: by an assertion, or because a listed
descriptor is out of range. -/
theorem doCloseVisitRecord_fails {io : CloseIo} (hw : w.Roster) (hl : w.inLooping = true)
    (hs : pos ∈ w.socks) (abort : ∀ a, P (.assert a))
    (range : ¬w.FdsInRange → P (.undefined .fdRange)) : FailsIn P
    (doCloseVisitRecord pos io w) := by
  obtain ⟨z, hz, -⟩ := hw.live pos hs
  rw [doCloseVisitRecord_eq hw hl hs hz]
  refine .ite (fun _ => ?_) fun _ => .ite (fun _ => .ite (fun _ => .error (abort _)) fun _ => ?_)
    fun _ => .ok _
  · by_cases hfd : World.InRange z.fd
    · rw [if_pos hfd]
      exact (reap_fails (hw.timedOutWorld hz) hl abort
        fun hout => range fun h => hout (h.timedOutWorld hz)).map
    · rw [if_neg hfd]
      exact .error (range fun h => hfd (h pos hs z hz))
  · exact (reap_fails hw hl abort range).map

end Failures

/-! ## Effects -/

/-- An event of a teardown. -/
def Event.tearsDown : Event → Bool
  | .shutdownFd _ => true
  | .closeFd _ => true
  | .tornDown _ => true
  | .freed _ => true
  | _ => false

namespace CloseVisit

/-- The teardown of an iteration, oldest event first: the descriptor of an EOF socket is closed and
its buffers are released, and a connection is freed afterwards. -/
def events (r : CloseVisit) : List Event :=
  if r.checked.eof then
    [.shutdownFd r.checked.fd, .closeFd r.checked.fd, .tornDown r.sock] ++
      if r.checked.type = .connection then [.freed r.sock] else []
  else []

/-- What is left of a socket that was torn down: nothing of a connection, and otherwise an object
off the list, without a descriptor and without buffers. -/
def remains (r : CloseVisit) : Slot :=
  if r.checked.type = .connection then .freed else .live r.checked.unlinked.torn

/-- Whether the teardown of an iteration closes the sockets with the port of the one torn down. -/
def cascades (r : CloseVisit) : Bool := r.checked.eof && decide (r.checked.type = .server)

/-- What an iteration has done between `w` and `w'`. -/
structure Did (r : CloseVisit) (w w' : World) : Prop where
  socks : w'.socks = if r.checked.eof then w.socks.erase r.sock else w.socks
  self : w'.mem r.sock = if r.checked.eof then r.remains else w.mem r.sock
  others : ∀ t ∈ w.socks, t ≠ r.sock → ∃ y, w.mem t = .live y ∧
    w'.mem t = .live (if r.cascades then y.cascaded r.checked.laddr.sinPort else y) ∧
    (r.cascades = true → y.laddr.sinPort = r.checked.laddr.sinPort → y.eof = false)
  outside : ∀ t ∉ w.socks, w'.mem t = w.mem t
  openFds : w'.openFds = if r.checked.eof then w.openFds.erase r.checked.fd else w.openFds
  trace : w'.trace.filter Event.tearsDown = r.events.reverse ++ w.trace.filter Event.tearsDown

end CloseVisit

/-- A cascade tears nothing down and closes no descriptor. -/
theorem cascade_quiet {port : UInt16} {l : List Sid} (hl : w.inLooping = true)
    (h : cascade port l w = .ok w') :
    w'.openFds = w.openFds ∧ w'.trace.filter Event.tearsDown = w.trace.filter Event.tearsDown := by
  induction l generalizing w with
  | nil => cases h; exact ⟨rfl, rfl⟩
  | cons pos l ih =>
      rw [cascade, List.foldlM_cons] at h
      obtain ⟨w₁, hb, h⟩ := bind_eq_ok.mp h
      obtain ⟨hl₁, hfds₁, htrace₁⟩ : w₁.inLooping = true ∧ w₁.openFds = w.openFds ∧
          w₁.trace.filter Event.tearsDown = w.trace.filter Event.tearsDown := by
        obtain ⟨z, hz, ⟨-, rfl⟩ | ⟨-, -, -, rfl⟩⟩ := (cascadeBody_looping hl).mp hb
        · exact ⟨hl, rfl, rfl⟩
        · exact ⟨hl, rfl, List.filter_cons_of_neg Bool.false_ne_true⟩
      obtain ⟨hfds, htrace⟩ := ih hl₁ h
      exact ⟨hfds.trans hfds₁, htrace.trans htrace₁⟩

/-- What taking a socket off the list and cascading its port do. -/
theorem unlinkCascade_did (hw : w.Roster) (hl : w.inLooping = true)
    (h : unlinkCascade pos z w = .ok v) : v.mem pos = .live z.unlinked ∧
      (∀ t ∈ w.socks, t ≠ pos → ∃ y, w.mem t = .live y ∧
        v.mem t = .live (if z.type = .server then y.cascaded z.laddr.sinPort else y) ∧
        (z.type = .server → y.laddr.sinPort = z.laddr.sinPort → y.eof = false)) ∧
      (∀ t ∉ w.socks, t ≠ pos → v.mem t = w.mem t) ∧ v.openFds = w.openFds ∧
      v.trace.filter Event.tearsDown = w.trace.filter Event.tearsDown := by
  have hself : (w.unlinkedWorld pos z).mem pos = .live z.unlinked := World.put_mem_self _ _ _
  have hother : ∀ t, t ≠ pos → (w.unlinkedWorld pos z).mem t = w.mem t :=
    fun t ht => World.put_mem_of_ne _ ht _
  unfold unlinkCascade at h
  by_cases hs : z.type = .server
  · rw [if_pos hs] at h
    obtain ⟨hin, hout, -⟩ := cascade_effect (w := w.unlinkedWorld pos z) hl (hw.nodup.erase pos) h
    obtain ⟨hfds, htrace⟩ := cascade_quiet (w := w.unlinkedWorld pos z) hl h
    refine ⟨(hout pos hw.nodup.not_mem_erase).trans hself, fun t ht hne => ?_,
      fun t ht hne => ?_, hfds, htrace⟩
    · obtain ⟨y, hy, hy', hguard⟩ := hin t (hw.nodup.mem_erase_iff.mpr ⟨hne, ht⟩)
      exact ⟨y, (hother t hne).symm.trans hy, by rw [if_pos hs]; exact hy',
        fun _ hp => (hguard hp).1⟩
    · exact (hout t fun hc => ht (List.mem_of_mem_erase hc)).trans (hother t hne)
  · rw [if_neg hs] at h
    cases h
    refine ⟨hself, fun t ht hne => ?_, fun t _ hne => hother t hne, rfl, rfl⟩
    obtain ⟨y, hy, -⟩ := hw.live t ht
    exact ⟨y, hy, by rw [if_neg hs, hother t hne, hy], fun hc => absurd hc hs⟩

/-- **What the teardown of a closed socket does.** -/
theorem reap_did {r : CloseVisit} (hw : w.Roster) (hl : w.inLooping = true) (hs : r.sock ∈ w.socks)
    (he : r.checked.eof = true) (h : reap r.sock r.checked w = .ok w') : r.Did w w' := by
  obtain ⟨-, -, hsocks⟩ := reap_frame hw hl h
  obtain ⟨v, hv, rfl⟩ := reap_eq_ok.mp h
  obtain ⟨hself, hin, hout, hfds, htrace⟩ := unlinkCascade_did hw hl hv
  obtain ⟨-, -, hmem⟩ := @reapedWorld_frame v r.sock r.checked.unlinked
  have hserver : r.cascades = true ↔ r.checked.type = .server := by
    rw [CloseVisit.cascades, he, Bool.true_and, decide_eq_true_iff]
  refine ⟨by rw [if_pos he]; exact hsocks, ?_, fun t ht hne => ?_, fun t ht => ?_, ?_, ?_⟩
  · rw [if_pos he, World.reapedWorld, CloseVisit.remains]
    by_cases hc : r.checked.type = .connection
    · rw [if_pos (by exact hc), if_pos hc]
      exact Function.update_self ..
    · rw [if_neg (by exact hc), if_neg hc]
      exact World.put_mem_self _ _ _
  · obtain ⟨y, hy, hy', hguard⟩ := hin t ht hne
    simp only [← hserver] at hy' hguard
    exact ⟨y, hy, (hmem t hne).trans hy', hguard⟩
  · have hne : t ≠ r.sock := fun hc => ht (hc ▸ hs)
    exact (hmem t hne).trans (hout t ht hne)
  · rw [if_pos he, World.reapedWorld, ← hfds]
    by_cases hc : r.checked.type = .connection
    · rw [if_pos (by exact hc)]
      rfl
    · rw [if_neg (by exact hc)]
      rfl
  · rw [CloseVisit.events, if_pos he, ← htrace, World.reapedWorld]
    by_cases hc : r.checked.type = .connection
    · rw [if_pos (by exact hc), if_pos hc]
      rfl
    · rw [if_neg (by exact hc), if_neg hc]
      rfl

/-- A close of the visited socket before its teardown makes no difference to the rest. -/
theorem CloseVisit.Did.of_before {r : CloseVisit} (h : r.Did v w') (hs : r.sock ∈ w.socks)
    (he : r.checked.eof = true) (hsocks : v.socks = w.socks)
    (hmem : ∀ t, t ≠ r.sock → v.mem t = w.mem t) (hfds : v.openFds = w.openFds)
    (htrace : v.trace.filter Event.tearsDown = w.trace.filter Event.tearsDown) : r.Did w w' := by
  refine ⟨hsocks ▸ h.socks, ?_, fun t ht hne => ?_, fun t ht => ?_, hfds ▸ h.openFds,
    htrace ▸ h.trace⟩
  · have hself := h.self
    rw [if_pos he] at hself ⊢
    exact hself
  · obtain ⟨y, hy, hrest⟩ := h.others t (hsocks ▸ ht) hne
    exact ⟨y, (hmem t hne).symm.trans hy, hrest⟩
  · exact (h.outside t (hsocks ▸ ht)).trans (hmem t fun hc => ht (hc ▸ hs))

/-- **What an iteration of `zsocket_do_close` does**, and what its record says. -/
theorem doCloseVisitRecord_did {io : CloseIo} {r : CloseVisit} (hw : w.Roster)
    (hl : w.inLooping = true) (hs : pos ∈ w.socks) (hz : w.mem pos = .live z)
    (h : doCloseVisitRecord pos io w = .ok (r, w')) :
    r = ⟨pos, z, z.stale io.now, if z.stale io.now then z.timedOut else z⟩ ∧ r.Did w w' := by
  rw [doCloseVisitRecord_eq hw hl hs hz] at h
  cases hstale : z.stale io.now with
  | true =>
      rw [hstale, if_pos rfl] at h
      by_cases hfd : World.InRange z.fd
      · rw [if_pos hfd] at h
        obtain ⟨u, hreap, hu⟩ := map_eq_ok.mp h
        cases hu
        have hdid : CloseVisit.Did ⟨pos, z, true, z.timedOut⟩ (w.timedOutWorld pos z) w' :=
          reap_did (hw.timedOutWorld hz) hl hs (ZSocket.closed_eof _ _) hreap
        refine ⟨rfl, hdid.of_before hs (ZSocket.closed_eof _ _) rfl (fun t ht => ?_) rfl
          (List.filter_cons_of_neg Bool.false_ne_true)⟩
        exact (World.put_mem_of_ne _ ht _).trans (World.put_mem_of_ne _ ht _)
      · rw [if_neg hfd] at h
        cases h
  | false =>
      rw [hstale, if_neg (by decide)] at h
      cases he : z.eof with
      | false =>
          rw [he, if_neg (by decide)] at h
          cases h
          have hopen : ¬ z.eof = true := by rw [he]; decide
          refine ⟨rfl, by rw [if_neg hopen], by rw [if_neg hopen], fun t ht _ => ?_, fun _ _ => rfl,
            by rw [if_neg hopen], by rw [CloseVisit.events, if_neg hopen]; rfl⟩
          have hcascades : CloseVisit.cascades ⟨pos, z, false, z⟩ = false := by
            rw [CloseVisit.cascades, he, Bool.false_and]
          obtain ⟨y, hy, -⟩ := hw.live t ht
          rw [hcascades]
          exact ⟨y, hy, hy, nofun⟩
      | true =>
          rw [he, if_pos rfl] at h
          by_cases ht : z.type = .none
          · rw [if_pos ht] at h
            cases h
          · rw [if_neg ht] at h
            obtain ⟨u, hreap, hu⟩ := map_eq_ok.mp h
            cases hu
            exact ⟨rfl, reap_did (r := ⟨pos, z, false, z⟩) hw hl hs he hreap⟩

/-! ## The pass -/

/-- An iteration keeps the listed descriptors in range. -/
theorem CloseVisit.Did.fdsInRange {r : CloseVisit} (h : r.Did w w') (hw : w.Roster)
    (hin : w.FdsInRange) : w'.FdsInRange := by
  refine hin.of_fd fun t ht y hy => ?_
  have others : t ∈ w.socks → t ≠ r.sock → ∃ z, w.mem t = .live z ∧ z.fd = y.fd := by
    intro hmem hne
    obtain ⟨z, hz, hz', -⟩ := h.others t hmem hne
    obtain rfl := Slot.live.inj (hz'.symm.trans hy)
    refine ⟨z, hz, ?_⟩
    cases r.cascades with
    | true => exact (z.cascaded_fd _).symm
    | false => rfl
  rw [h.socks] at ht
  by_cases he : r.checked.eof = true
  · rw [if_pos he] at ht
    obtain ⟨hne, hmem⟩ := hw.nodup.mem_erase_iff.mp ht
    exact ⟨hmem, others hmem hne⟩
  · rw [if_neg he] at ht
    refine ⟨ht, ?_⟩
    by_cases hts : t = r.sock
    · have hself := h.self
      rw [if_neg he, ← hts] at hself
      exact ⟨y, hself.symm.trans hy, rfl⟩
    · exact others ht hts

/-- **The range of a pass.** Where the descriptors of the listed sockets fit into an `fd_set`, a
pass gives `FD_CLR` no index out of range. -/
theorem zsocketDoClose_inRange (io : Sid → CloseIo) (hw : w.Roster) (hl : w.inLooping = true)
    (hin : w.FdsInRange) : zsocketDoClose io w ≠ .error (.undefined .fdRange) := by
  obtain ⟨hfails, -⟩ :=
    @zsocketDoCloseRecord_rule w io (fun _ _ _ v => v.FdsInRange) Fault.Ranged hw hl hin
      fun p pos l visits v p' hv hvl hsp hs h => by
        have hpos : pos ∈ v.socks := by rw [hs]; simp
        obtain ⟨z, hz, -⟩ := hv.live pos hpos
        refine ⟨doCloseVisitRecord_fails hv hvl hpos ranged_assert fun hout => absurd h hout,
          fun r v' hvisit => ?_⟩
        exact (doCloseVisitRecord_did hv hvl hpos hz hvisit).2.fdsInRange hv h
  have hpass := hfails.map (f := Prod.snd)
  rw [zsocketDoCloseRecord_snd] at hpass
  exact fun h => hpass _ h rfl

/-- How a visited socket is left by the pass: torn down if it was EOF, and listed otherwise. -/
def CloseVisit.Settled (r : CloseVisit) (w : World) : Prop :=
  if r.checked.eof then w.mem r.sock = r.remains
  else ∃ z, w.mem r.sock = .live z ∧ z.node = .linked

/-- What a pass has done so far: `p` are the sockets passed and `l` those ahead, `visits` is the
record, and the pass started in `w` and is in `v`. -/
structure PassSoFar (w : World) (p l : List Sid) (visits : List CloseVisit) (v : World) : Prop where
  passed : visits.map CloseVisit.sock = p
  socks : v.socks = (visits.filter fun r => !r.checked.eof).map CloseVisit.sock ++ l
  settled : ∀ r ∈ visits, r.Settled v
  outside : ∀ t ∉ w.socks, v.mem t = w.mem t
  openFds : ∀ d, d ∈ v.openFds ↔ d ∈ w.openFds ∧ ∀ r ∈ visits, r.checked.eof = true →
    r.checked.fd ≠ d
  trace : v.trace.filter Event.tearsDown =
    (visits.flatMap CloseVisit.events).reverse ++ w.trace.filter Event.tearsDown

/-- Before the first iteration. -/
theorem PassSoFar.start (w : World) : PassSoFar w [] w.socks [] w :=
  ⟨rfl, rfl, fun _ hr => absurd hr List.not_mem_nil, fun _ _ => rfl,
    fun _ => ⟨fun hd => ⟨hd, fun _ hr => absurd hr List.not_mem_nil⟩, fun hd => hd.1⟩, rfl⟩

/-- The sockets listed were listed before. -/
theorem PassSoFar.sub {p l : List Sid} {visits : List CloseVisit} (h : PassSoFar w p l visits v)
    (hsp : w.socks = p ++ l) : ∀ t ∈ v.socks, t ∈ w.socks := by
  intro t ht
  rw [h.socks] at ht
  rw [hsp]
  obtain ht | ht := List.mem_append.mp ht
  · obtain ⟨r, hr, rfl⟩ := List.mem_map.mp ht
    refine List.mem_append_left _ (h.passed ▸ List.mem_map_of_mem ?_)
    exact (List.mem_filter.mp hr).1
  · exact List.mem_append_right _ ht

/-- A visited socket that was not EOF is listed. -/
theorem PassSoFar.mem_socks {p l : List Sid} {visits : List CloseVisit} {r : CloseVisit}
    (h : PassSoFar w p l visits v) (hr : r ∈ visits) (he : ¬ r.checked.eof = true) :
    r.sock ∈ v.socks := by
  rw [h.socks]
  exact List.mem_append_left _ (List.mem_map_of_mem (List.mem_filter.mpr ⟨hr, by simpa using he⟩))

/-- A visited socket that was EOF is off the list. -/
theorem PassSoFar.off_list {p l : List Sid} {visits : List CloseVisit}
    (h : PassSoFar w p l visits v) (hw : w.Roster) (hsp : w.socks = p ++ l) :
    ∀ r ∈ visits, r.checked.eof = true → r.sock ∉ v.socks := by
  intro r hr he hc
  have hnd := hw.nodup
  rw [hsp, ← h.passed] at hnd
  obtain ⟨hpassed, -, hdisjoint⟩ := List.nodup_append.mp hnd
  rw [h.socks] at hc
  obtain hc | hc := List.mem_append.mp hc
  -- no other visit was of the same socket
  · obtain ⟨r₁, hr₁, hsame⟩ := List.mem_map.mp hc
    obtain ⟨hr₁, hopen⟩ := List.mem_filter.mp hr₁
    obtain rfl := List.inj_on_of_nodup_map hpassed hr₁ hr hsame
    rw [he] at hopen
    cases hopen
  · exact hdisjoint _ (List.mem_map_of_mem hr) _ hc rfl

/-- **An iteration goes on with what the pass has done so far.** -/
theorem PassSoFar.visit {p l p' : List Sid} {visits : List CloseVisit} {r : CloseVisit}
    {io : CloseIo} (h : PassSoFar w p (pos :: l) visits v) (hw : w.Roster) (hv : v.Roster)
    (hl : v.inLooping = true) (hsp : w.socks = p ++ pos :: l) (hs : v.socks = p' ++ pos :: l)
    (hvisit : doCloseVisitRecord pos io v = .ok (r, v')) :
    PassSoFar w (p ++ [pos]) l (visits ++ [r]) v' := by
  have hpos : pos ∈ v.socks := by rw [hs]; simp
  obtain ⟨z, hz, hn⟩ := hv.live pos hpos
  obtain ⟨hr, hdid⟩ := doCloseVisitRecord_did hv hl hpos hz hvisit
  have hsock : r.sock = pos := by rw [hr]
  -- `pos` was not passed before, and what was torn down before is off the list
  have hfresh : ∀ r₀ ∈ visits, r₀.sock ≠ pos := by
    intro r₀ hr₀ hc
    have hmem : r₀.sock ∈ p := h.passed ▸ List.mem_map_of_mem hr₀
    exact (hw.split hsp).1 (hc ▸ hmem)
  have hoff := h.off_list hw hsp
  refine ⟨?_, ?_, ?_, fun t ht => ?_, fun d => ?_, ?_⟩
  · rw [List.map_append, h.passed, List.map_singleton, hsock]
  · have hfront : p' = (visits.filter fun r => !r.checked.eof).map CloseVisit.sock :=
      List.append_cancel_right (hs.symm.trans h.socks)
    rw [hdid.socks, hsock, List.filter_append, List.map_append, ← hfront]
    cases he : r.checked.eof with
    | true =>
        rw [if_pos rfl, (hv.split hs).2]
        simp [he]
    | false =>
        rw [if_neg (by decide), hs]
        simp [he, hsock]
  · intro r₀ hr₀
    obtain hr₀ | hr₀ := List.mem_append.mp hr₀
    · have hbefore := h.settled r₀ hr₀
      unfold CloseVisit.Settled at hbefore ⊢
      by_cases he : r₀.checked.eof = true
      · rw [if_pos he] at hbefore ⊢
        exact (hdid.outside _ (hoff r₀ hr₀ he)).trans hbefore
      · rw [if_neg he] at hbefore ⊢
        obtain ⟨x, hx, hxn⟩ := hbefore
        obtain ⟨y, hy, hy', -⟩ := hdid.others r₀.sock (h.mem_socks hr₀ he) (hsock ▸ hfresh r₀ hr₀)
        obtain rfl : x = y := Slot.live.inj (hx.symm.trans hy)
        refine ⟨_, hy', ?_⟩
        cases r.cascades with
        | false => exact hxn
        | true => exact (ZSocket.cascaded_node _ _).trans hxn
    · obtain rfl := List.mem_singleton.mp hr₀
      have hself := hdid.self
      unfold CloseVisit.Settled
      by_cases he : r₀.checked.eof = true
      · rw [if_pos he] at hself ⊢
        exact hself
      · rw [if_neg he] at hself ⊢
        exact ⟨z, hself.trans (hsock ▸ hz), hn⟩
  · exact (hdid.outside t fun hc => ht (h.sub hsp t hc)).trans (h.outside t ht)
  · rw [hdid.openFds]
    cases he : r.checked.eof with
    | true =>
        rw [if_pos rfl, Finset.mem_erase, h.openFds d]
        constructor
        · rintro ⟨hne, hd, hall⟩
          refine ⟨hd, fun r₁ hr₁ he₁ => ?_⟩
          obtain hr₁ | hr₁ := List.mem_append.mp hr₁
          · exact hall r₁ hr₁ he₁
          · obtain rfl := List.mem_singleton.mp hr₁
            exact Ne.symm hne
        · rintro ⟨hd, hall⟩
          exact ⟨Ne.symm (hall r (by simp) he), hd, fun r₁ hr₁ => hall r₁ (by simp [hr₁])⟩
    | false => simp [h.openFds d, he, or_imp, forall_and]
  · rw [hdid.trace, h.trace, List.flatMap_append, List.reverse_append, ← List.append_assoc]
    simp

/-- **The deferred closes mind their memory.** A pass over any list of distinct sockets, in which no
assertion fails and no descriptor is out of range, returns. It has visited each listed socket once,
in the order of the list; it has torn down those that were EOF when they were visited, once each and
in that order, and freed the connections among them; it has closed their descriptors and no others,
and left all other sockets listed in their order.

The hypothesis `inRange` leaves out the passes in which a timeout or a cascade gives `FD_CLR` an
index that the set does not have: what the program does from there on is not defined. It is about
the closes that are made and not about the list, since a descriptor that does not fit is harmless to
a pass that clears it nowhere; where the listed descriptors fit it holds
(`zsocketDoClose_inRange`). -/
theorem close_pass_disciplined (io : Sid → CloseIo) (hw : w.Roster) (hl : w.inLooping = true)
    (noAbort : ∀ a, zsocketDoClose io w ≠ .error (.assert a))
    (inRange : zsocketDoClose io w ≠ .error (.undefined .fdRange)) :
    ∃ visits w', zsocketDoCloseRecord io w = .ok (visits, w') ∧ zsocketDoClose io w = .ok w' ∧
      visits.map CloseVisit.sock = w.socks ∧
      w'.trace.filter Event.tearsDown =
        (visits.flatMap CloseVisit.events).reverse ++ w.trace.filter Event.tearsDown ∧
      (∀ r ∈ visits, r.Settled w') ∧ (∀ t ∉ w.socks, w'.mem t = w.mem t) ∧
      (∀ d, d ∈ w'.openFds ↔
        d ∈ w.openFds ∧ ∀ r ∈ visits, r.checked.eof = true → r.checked.fd ≠ d) ∧
      w'.socks = (visits.filter fun r => !r.checked.eof).map CloseVisit.sock := by
  obtain ⟨hfails, hends⟩ :=
    @zsocketDoCloseRecord_rule w io (PassSoFar w) Fault.Orderly hw hl (.start w)
      fun p pos l visits v p' hv hvl hsp hs h =>
        ⟨doCloseVisitRecord_fails hv hvl (by rw [hs]; simp) (fun _ => trivial) fun _ => trivial,
          fun r v' hvisit => h.visit hw hv hvl hsp hs hvisit⟩
  have hreturns : ∃ a, zsocketDoCloseRecord io w = .ok a := by
    cases hrun : zsocketDoCloseRecord io w with
    | ok a => exact ⟨a, rfl⟩
    | error e =>
        have hpass : zsocketDoClose io w = .error e := by
          rw [← zsocketDoCloseRecord_snd, hrun]
          rfl
        have horderly := hfails e hrun
        cases e with
        | assert a => exact absurd hpass (noAbort a)
        | undefined u =>
            cases u with
            | fdRange => exact absurd hpass inRange
            | deadObject | poisonedNode | relinkedNode | outOfBounds | nullBuffer => cases horderly
        | environment | fuel => cases horderly
  obtain ⟨⟨visits, w'⟩, hrecord⟩ := hreturns
  obtain ⟨-, -, h⟩ := hends visits w' hrecord
  exact ⟨visits, w', hrecord, zsocketDoClose_of hrecord, h.passed, h.trace, h.settled, h.outside,
    h.openFds, h.socks.trans (List.append_nil _)⟩

/-- Whether a pass over the connection `1` and its server `0` returns. -/
def passReturns (io : Sid → CloseIo) (w : World) : Bool :=
  decide (w.socks = [1, 0]) && w.inLooping && match zsocketDoClose io w with
    | .ok _ => true
    | .error _ => false

/-- A pass over a connection that has timed out and its server visits both, once each. -/
theorem close_pass_disciplined_run : ∃ (w w' : World) (visits : List CloseVisit),
    zsocketDoCloseRecord (fun _ => ⟨1000, []⟩) w = .ok (visits, w') ∧
      visits.map CloseVisit.sock = [1, 0] := by
  obtain ⟨c, r, h⟩ := Machine.Reach.of_leadsTo (M := zio)
    (P := fun c => passReturns (fun _ => ⟨1000, []⟩) c.world) .init
    (show zio.leadsTo Machine.anyStep _ (acceptOne 8000 ++ [.loop 1000 .timeout]) zio.init = true
      by decide +kernel)
  simp only [passReturns, Bool.and_eq_true, decide_eq_true_eq] at h
  obtain ⟨⟨hsocks, hl⟩, hreturns⟩ := h
  split at hreturns
  · next w' hrun =>
    obtain ⟨visits, w', hrecord, -, hpassed, -⟩ := close_pass_disciplined (fun _ => ⟨1000, []⟩)
      (Sys.sound r).wf.roster hl (fun a hc => by rw [hrun] at hc; cases hc)
      (fun hc => by rw [hrun] at hc; cases hc)
    exact ⟨c.world, w', visits, hrecord, hpassed.trans hsocks⟩
  · cases hreturns

end LibZio
