import LibZio.Zsocket.WellFormed

/-! # What closing does

Closed forms of `zsocket_close` and `__zsocket_close`. While the library is looping a close only
flags the socket, and the traversal inside a teardown is a fold over the list. When the library is
not looping, a close tears the socket down at once, and the teardown of a server returns only if no
listed socket has its port: a matching one would be unlinked under the traversal, which then follows
a poisoned node (`_zsocketCloseFuel_immediate`). -/

namespace LibZio

/-! ## The traversal macro -/

/-- The successor of an element of a list without repetition. -/
theorem World.successor_append {p l : List Sid} {s : Sid} (h : (p ++ s :: l).Nodup) :
    World.successor (p ++ s :: l) s = l.head? := by
  induction p with
  | nil => simp [World.successor]
  | cons a p ih =>
      have ha : a ≠ s := by
        rintro rfl
        exact (List.nodup_cons.mp h).1 (by simp)
      rw [List.cons_append, World.successor, if_neg ha]
      exact ih (List.nodup_cons.mp h).2

/-- What the traversals need of the list: its sockets are distinct, live and linked. -/
structure World.Roster (w : World) : Prop where
  nodup : w.socks.Nodup
  live : ∀ s ∈ w.socks, ∃ z, w.mem s = .live z ∧ z.node = .linked

namespace World.Roster

variable {w w' : World} {s : Sid} {z : ZSocket} {p l : List Sid}

/-- A listed socket is linked. -/
theorem linked (h : w.Roster) (hs : s ∈ w.socks) (hz : w.mem s = .live z) : z.node = .linked := by
  obtain ⟨y, hy, hn⟩ := h.live s hs
  obtain rfl : z = y := Slot.live.inj (hz.symm.trans hy)
  exact hn

/-- Where the list is cut at a socket, the socket is not in front, and taking it out joins the
parts. -/
theorem split (h : w.Roster) (hs : w.socks = p ++ s :: l) : s ∉ p ∧ w.socks.erase s = p ++ l := by
  have hnd := h.nodup
  rw [hs] at hnd ⊢
  exact ⟨notMem_front hnd, erase_middle hnd⟩

/-- The successor of a listed socket. -/
theorem listNext (h : w.Roster) (hs : w.socks = p ++ s :: l) : w.listNext s = .ok l.head? := by
  obtain ⟨z, hz, hn⟩ := h.live s (by rw [hs]; simp)
  rw [World.listNext, World.deref_eq_ok.mpr hz, ok_bind, hn]
  have hnd := h.nodup
  rw [hs] at hnd
  rw [hs, World.successor_append hnd]

/-- Rewriting listed sockets without touching their nodes. -/
theorem congr (h : w.Roster) (hsocks : w'.socks = w.socks)
    (hmem : ∀ t ∈ w.socks, ∀ y, w.mem t = .live y → ∃ y', w'.mem t = .live y' ∧ y'.node = y.node) :
    w'.Roster := by
  refine ⟨hsocks ▸ h.nodup, fun t ht => ?_⟩
  rw [hsocks] at ht
  obtain ⟨y, hy, hn⟩ := h.live t ht
  obtain ⟨y', hy', hn'⟩ := hmem t ht y hy
  exact ⟨y', hy', hn'.trans hn⟩

/-- Writing a socket without touching its node. -/
theorem put {y : ZSocket} (h : w.Roster) (hz : w.mem s = .live z) (hn : y.node = z.node) :
    (w.put s y).Roster := by
  refine h.congr rfl fun t _ x hx => ?_
  by_cases hts : t = s
  · subst hts
    obtain rfl : z = x := Slot.live.inj (hz.symm.trans hx)
    exact ⟨y, World.put_mem_self _ _ _, hn⟩
  · exact ⟨x, (World.put_mem_of_ne _ hts _).trans hx, rfl⟩

/-- Closing a socket in the loop. -/
theorem closedWorld (h : w.Roster) (hz : w.mem s = .live z) (cb : Option Cb) :
    (w.closedWorld s z cb).Roster :=
  (h.put (y := z.closed cb) hz rfl).congr rfl fun _ _ y hy => ⟨y, hy, rfl⟩

/-- Taking a socket off the list. -/
theorem unlinkedWorld (h : w.Roster) : (w.unlinkedWorld s z).Roster := by
  refine ⟨h.nodup.erase s, fun t ht => ?_⟩
  obtain ⟨hne, ht⟩ := h.nodup.mem_erase_iff.mp ht
  obtain ⟨y, hy, hn⟩ := h.live t ht
  exact ⟨y, (World.put_mem_of_ne _ hne _).trans hy, hn⟩

end World.Roster

/-- The list of a well-formed world is one. -/
theorem World.WF.roster {w : World} (h : w.WF) : w.Roster := ⟨h.nodup, fun _ hs => h.live_of_mem hs⟩

/-- The successor of a listed socket in a well-formed world. -/
theorem World.WF.listNext {w : World} (h : w.WF) {p l : List Sid} {s : Sid}
    (hs : w.socks = p ++ s :: l) : w.listNext s = .ok l.head? :=
  h.roster.listNext hs

/-- **A traversal is a fold** when its body keeps an invariant and the list. -/
theorem forEachEntry_eq_foldlM {body : Sid → World → Res World} {I : World → Prop}
    (roster : ∀ w, I w → w.Roster)
    (keep : ∀ pos w w', I w → pos ∈ w.socks → body pos w = .ok w' → I w' ∧ w'.socks = w.socks)
    {p l : List Sid} {w : World} {fuel : ℕ} (hI : I w) (hs : w.socks = p ++ l)
    (hf : l.length ≤ fuel) :
    forEachEntry body fuel l.head? w = l.foldlM (fun w pos => body pos w) w := by
  induction l generalizing p w fuel with
  | nil => cases fuel <;> rfl
  | cons pos l ih =>
      cases fuel with
      | zero => cases hf
      | succ fuel =>
          rw [List.head?_cons, forEachEntry, List.foldlM_cons]
          cases hb : body pos w with
          | error e => rfl
          | ok w₁ =>
              obtain ⟨hI₁, hs₁⟩ := keep pos w w₁ hI (by rw [hs]; simp) hb
              rw [ok_bind, ok_bind, (roster w₁ hI₁).listNext (hs₁.trans hs), ok_bind]
              refine ih (p := p ++ [pos]) hI₁ ?_ (Nat.le_of_succ_le_succ hf)
              rw [hs₁, hs, List.append_assoc]
              rfl

/-! ## Closing while looping -/

/-- While the library is looping, a close flags the socket. -/
theorem zsocketCloseWith_looping {teardown : Sid → World → Res World} {s : Sid} {cb : Option Cb}
    {w w' : World} (hl : w.inLooping = true) :
    zsocketCloseWith teardown s cb w = .ok w' ↔
      ∃ z, w.mem s = .live z ∧ z.eof = false ∧ World.InRange z.fd ∧ w' = w.closedWorld s z cb := by
  constructor
  · intro h
    obtain ⟨z, hz, h⟩ := bind_eq_ok.mp h
    obtain ⟨_, he, h⟩ := bind_eq_ok.mp h
    obtain ⟨w₁, h₁, h⟩ := bind_eq_ok.mp h
    obtain ⟨w₂, h₂, h⟩ := bind_eq_ok.mp h
    obtain ⟨hfd, rfl⟩ := World.unwatchRead_eq_ok.mp h₁
    obtain ⟨-, rfl⟩ := World.unwatchWrite_eq_ok.mp h₂
    have hlog : w' = w.closedWorld s z cb := by
      rw [if_pos (by exact hl)] at h
      cases h
      rfl
    exact ⟨z, World.deref_eq_ok.mp hz, by simpa using he, hfd, hlog⟩
  · rintro ⟨z, hz, he, hfd, rfl⟩
    refine bind_eq_ok.mpr ⟨z, World.deref_eq_ok.mpr hz, bind_eq_ok.mpr ⟨⟨⟩, by simp [he], ?_⟩⟩
    refine bind_eq_ok.mpr ⟨_, World.unwatchRead_eq_ok.mpr ⟨hfd, rfl⟩, ?_⟩
    refine bind_eq_ok.mpr ⟨_, World.unwatchWrite_eq_ok.mpr ⟨hfd, rfl⟩, ?_⟩
    rw [if_pos (by exact hl)]
    rfl

/-- While the library is looping, a close of a live socket flags it, unless it is EOF or its
descriptor is out of range. -/
theorem zsocketCloseWith_eq {teardown : Sid → World → Res World} {s : Sid} {cb : Option Cb}
    {w : World} {z : ZSocket} (hl : w.inLooping = true) (hz : w.mem s = .live z) :
    zsocketCloseWith teardown s cb w =
      if z.eof then .error (.assert .closeEof)
      else if World.InRange z.fd then .ok (w.closedWorld s z cb)
      else .error (.undefined .fdRange) := by
  cases he : z.eof with
  | true =>
      rw [zsocketCloseWith, World.deref_eq_ok.mpr hz, ok_bind, he]
      rfl
  | false =>
      by_cases hfd : World.InRange z.fd
      · rw [if_neg (by decide), if_pos hfd]
        exact (zsocketCloseWith_looping hl).mpr ⟨z, hz, he, hfd, rfl⟩
      · have hclr : w.unwatchRead z.fd = .error (.undefined .fdRange) := by
          rw [World.unwatchRead, World.fdClr, if_neg (by exact hfd)]
          rfl
        rw [if_neg (by decide), if_neg hfd, zsocketCloseWith, World.deref_eq_ok.mpr hz, ok_bind, he,
          Bool.not_false, ensure_true, ok_bind, hclr]
        rfl

/-- When the library is not looping, a close flags the socket and tears it down. -/
theorem zsocketCloseWith_immediate {teardown : Sid → World → Res World} {s : Sid} {cb : Option Cb}
    {w w' : World} (hl : w.inLooping = false) :
    zsocketCloseWith teardown s cb w = .ok w' ↔
      ∃ z, w.mem s = .live z ∧ z.eof = false ∧ World.InRange z.fd ∧
        teardown s (w.closedWorld s z cb) = .ok w' := by
  constructor
  · intro h
    obtain ⟨z, hz, h⟩ := bind_eq_ok.mp h
    obtain ⟨_, he, h⟩ := bind_eq_ok.mp h
    obtain ⟨w₁, h₁, h⟩ := bind_eq_ok.mp h
    obtain ⟨w₂, h₂, h⟩ := bind_eq_ok.mp h
    obtain ⟨hfd, rfl⟩ := World.unwatchRead_eq_ok.mp h₁
    obtain ⟨-, rfl⟩ := World.unwatchWrite_eq_ok.mp h₂
    rw [if_neg (by exact fun hc => Bool.false_ne_true (hl.symm.trans hc))] at h
    exact ⟨z, World.deref_eq_ok.mp hz, by simpa using he, hfd, h⟩
  · rintro ⟨z, hz, he, hfd, h⟩
    refine bind_eq_ok.mpr ⟨z, World.deref_eq_ok.mpr hz, bind_eq_ok.mpr ⟨⟨⟩, by simp [he], ?_⟩⟩
    refine bind_eq_ok.mpr ⟨_, World.unwatchRead_eq_ok.mpr ⟨hfd, rfl⟩, ?_⟩
    refine bind_eq_ok.mpr ⟨_, World.unwatchWrite_eq_ok.mpr ⟨hfd, rfl⟩, ?_⟩
    rw [if_neg (by exact fun hc => Bool.false_ne_true (hl.symm.trans hc))]
    exact h

/-! ## The cascade while looping -/

/-- The fold of the traversal in `__zsocket_close` while the library is looping. -/
def cascade (port : UInt16) (l : List Sid) (w : World) : Res World :=
  l.foldlM (fun w pos => cascadeBody (fun _ w => .ok w) port pos w) w

/-- One step of the cascade: nothing, or the close of a socket with the port. -/
theorem cascadeBody_looping {teardown : Sid → World → Res World} {port : UInt16} {pos : Sid}
    {w w' : World} (hl : w.inLooping = true) :
    cascadeBody teardown port pos w = .ok w' ↔
      ∃ z, w.mem pos = .live z ∧
        ((z.laddr.sinPort ≠ port ∧ w' = w) ∨
          (z.laddr.sinPort = port ∧ z.eof = false ∧ World.InRange z.fd ∧
            w' = w.closedWorld pos z none)) := by
  constructor
  · intro h
    obtain ⟨z, hz, h⟩ := bind_eq_ok.mp h
    refine ⟨z, World.deref_eq_ok.mp hz, ?_⟩
    by_cases hp : z.laddr.sinPort = port
    · rw [if_pos hp] at h
      obtain ⟨y, hy, he, hfd, rfl⟩ := (zsocketCloseWith_looping hl).mp h
      obtain rfl : y = z := Slot.live.inj (hy.symm.trans (World.deref_eq_ok.mp hz))
      exact .inr ⟨hp, he, hfd, rfl⟩
    · rw [if_neg hp] at h
      cases h
      exact .inl ⟨hp, rfl⟩
  · rintro ⟨z, hz, ⟨hp, rfl⟩ | ⟨hp, he, hfd, rfl⟩⟩
    · refine bind_eq_ok.mpr ⟨z, World.deref_eq_ok.mpr hz, ?_⟩
      rw [if_neg hp]
      rfl
    · refine bind_eq_ok.mpr ⟨z, World.deref_eq_ok.mpr hz, ?_⟩
      rw [if_pos hp]
      exact (zsocketCloseWith_looping hl).mpr ⟨z, hz, he, hfd, rfl⟩

/-- What the cascade does to a socket is decided without the teardown. -/
theorem cascadeBody_congr (teardown t : Sid → World → Res World) {port : UInt16} {pos : Sid}
    {w : World} (hl : w.inLooping = true) :
    cascadeBody teardown port pos w = cascadeBody t port pos w := by
  unfold cascadeBody zsocketCloseWith
  refine bind_congr fun y => ?_
  by_cases hp : y.laddr.sinPort = port
  · rw [if_pos hp, if_pos hp]
    refine bind_congr fun z => bind_congr fun _ => ?_
    cases h₁ : w.unwatchRead z.fd with
    | error e => rfl
    | ok w₁ =>
        obtain ⟨-, rfl⟩ := World.unwatchRead_eq_ok.mp h₁
        rw [ok_bind, ok_bind]
        cases h₂ : (w.unwatchedRead z.fd).unwatchWrite z.fd with
        | error e => rfl
        | ok w₂ =>
            obtain ⟨-, rfl⟩ := World.unwatchWrite_eq_ok.mp h₂
            rw [ok_bind, ok_bind, if_pos (by exact hl), if_pos (by exact hl)]
  · rw [if_neg hp, if_neg hp]

/-- One step of the cascade keeps the list, the mode and well-formedness. -/
theorem cascadeBody_keeps {teardown : Sid → World → Res World} {port : UInt16} {pos : Sid}
    {w w' : World} (hw : w.WF ∧ w.inLooping = true) (hpos : pos ∈ w.socks)
    (h : cascadeBody teardown port pos w = .ok w') :
    (w'.WF ∧ w'.inLooping = true) ∧ w'.socks = w.socks := by
  obtain ⟨z, hz, ⟨-, rfl⟩ | ⟨-, he, hfd, rfl⟩⟩ := (cascadeBody_looping hw.2).mp h
  · exact ⟨hw, rfl⟩
  · exact ⟨⟨hw.1.closedWorld hz (hw.1.linked_of_mem hpos hz) none, hw.2⟩, rfl⟩

/-- One step of the cascade keeps the list and the mode. -/
theorem cascadeBody_roster {teardown : Sid → World → Res World} {port : UInt16} {pos : Sid}
    {w w' : World} (hw : w.Roster ∧ w.inLooping = true)
    (h : cascadeBody teardown port pos w = .ok w') :
    (w'.Roster ∧ w'.inLooping = true) ∧ w'.socks = w.socks := by
  obtain ⟨z, hz, ⟨-, rfl⟩ | ⟨-, -, -, rfl⟩⟩ := (cascadeBody_looping hw.2).mp h
  · exact ⟨hw, rfl⟩
  · exact ⟨⟨hw.1.closedWorld hz none, hw.2⟩, rfl⟩

/-- While the library is looping, the traversal in `__zsocket_close` is the fold `cascade`. -/
theorem forEachEntry_cascade {teardown : Sid → World → Res World} {port : UInt16}
    {w : World} (hw : w.Roster) (hl : w.inLooping = true) :
    forEachEntry (cascadeBody teardown port) w.socks.length w.listFirst w =
      cascade port w.socks w := by
  have hcongr : ∀ (l : List Sid) (w : World), w.Roster → w.inLooping = true →
      l.foldlM (fun w pos => cascadeBody teardown port pos w) w = cascade port l w := by
    intro l
    induction l with
    | nil => intros; rfl
    | cons pos l ih =>
        intro w hw hl
        rw [cascade, List.foldlM_cons, List.foldlM_cons,
          cascadeBody_congr teardown (fun _ w => .ok w) hl]
        cases hb : cascadeBody (fun _ w => .ok w) port pos w with
        | error e => rfl
        | ok w₁ =>
            obtain ⟨⟨hw₁, hl₁⟩, -⟩ := cascadeBody_roster ⟨hw, hl⟩ hb
            exact ih w₁ hw₁ hl₁
  rw [World.listFirst, forEachEntry_eq_foldlM (I := fun w => w.Roster ∧ w.inLooping = true)
    (fun _ h => h.1) (fun _ _ _ hI _ => cascadeBody_roster hI) ⟨hw, hl⟩ (p := []) rfl le_rfl]
  exact hcongr w.socks w hw hl

/-- The cascade leaves every socket it does not visit. -/
theorem cascade_frame {port : UInt16} {l : List Sid} {w w' : World} (hl : w.inLooping = true)
    (h : cascade port l w = .ok w') :
    w'.inLooping = true ∧ w'.socks = w.socks ∧ ∀ t ∉ l, w'.mem t = w.mem t := by
  induction l generalizing w with
  | nil => cases h; exact ⟨hl, rfl, fun _ _ => rfl⟩
  | cons pos l ih =>
      rw [cascade, List.foldlM_cons] at h
      obtain ⟨w₁, hb, h⟩ := bind_eq_ok.mp h
      obtain ⟨hl₁, hs₁, hm₁⟩ : w₁.inLooping = true ∧ w₁.socks = w.socks ∧
          ∀ t, t ≠ pos → w₁.mem t = w.mem t := by
        obtain ⟨z, hz, ⟨-, rfl⟩ | ⟨-, -, -, rfl⟩⟩ := (cascadeBody_looping hl).mp hb
        · exact ⟨hl, rfl, fun _ _ => rfl⟩
        · exact ⟨hl, rfl, fun t ht => World.put_mem_of_ne _ ht _⟩
      obtain ⟨hl', hs', hm'⟩ := ih hl₁ h
      refine ⟨hl', hs'.trans hs₁, fun t ht => ?_⟩
      rw [List.mem_cons, not_or] at ht
      exact (hm' t ht.2).trans (hm₁ t ht.1)

/-- The cascade keeps the list, the mode, well-formedness, and every socket it does not visit. -/
theorem cascade_keeps {port : UInt16} {l : List Sid} {w w' : World} (hw : w.WF)
    (hl : w.inLooping = true) (hmem : ∀ s ∈ l, s ∈ w.socks) (h : cascade port l w = .ok w') :
    w'.WF ∧ w'.inLooping = true ∧ w'.socks = w.socks ∧ ∀ t ∉ l, w'.mem t = w.mem t := by
  refine ⟨?_, cascade_frame hl h⟩
  induction l generalizing w with
  | nil => cases h; exact hw
  | cons pos l ih =>
      rw [cascade, List.foldlM_cons] at h
      obtain ⟨w₁, hb, h⟩ := bind_eq_ok.mp h
      obtain ⟨⟨hw₁, hl₁⟩, hs₁⟩ := cascadeBody_keeps ⟨hw, hl⟩ (hmem pos (by simp)) hb
      exact ih hw₁ hl₁ (fun s hs => hs₁ ▸ hmem s (by simp [hs])) h

/-! ## Tearing down while looping -/

/-- The world in which a closed socket has been taken off the list and its port cascaded. -/
def unlinkCascade (s : Sid) (z : ZSocket) (w : World) : Res World :=
  if z.type = .server then cascade z.laddr.sinPort (w.socks.erase s) (w.unlinkedWorld s z)
  else .ok (w.unlinkedWorld s z)

/-- **A teardown while looping** unlinks the socket, flags the sockets with the port of a server,
and releases the socket. -/
theorem _zsocketClose_eq {s : Sid} {z : ZSocket} {w : World} (hw : w.Roster)
    (hl : w.inLooping = true) (hs : s ∈ w.socks) (hz : w.mem s = .live z) (he : z.eof = true)
    (ht : z.type ≠ .none) :
    _zsocketClose s w = do
      let w ← unlinkCascade s z w
      return w.releasedWorld s z.unlinked := by
  have hdel : w.listDel s = .ok (w.unlinkedWorld s z) := by
    rw [World.listDel, World.deref_eq_ok.mpr hz, ok_bind, hw.linked hs hz]
    rfl
  -- the nested closes only mark their sockets, whatever the teardown is
  have hcascade : (if z.type = .server then
        forEachEntry (cascadeBody (_zsocketCloseFuel w.socks.length) z.laddr.sinPort)
          (w.unlinkedWorld s z).socks.length (w.unlinkedWorld s z).listFirst (w.unlinkedWorld s z)
      else .ok (w.unlinkedWorld s z)) = unlinkCascade s z w := by
    unfold unlinkCascade
    by_cases hserver : z.type = .server
    · rw [if_pos hserver, if_pos hserver, forEachEntry_cascade hw.unlinkedWorld hl]
      rfl
    · rw [if_neg hserver, if_neg hserver]
  rw [_zsocketClose, _zsocketCloseFuel, World.deref_eq_ok.mpr hz, ok_bind, he, ensure_true, ok_bind,
    decide_eq_true ht, ensure_true, ok_bind, hdel, ok_bind, hcascade]
  cases hc : unlinkCascade s z w with
  | error e => rfl
  | ok w₁ =>
      -- `s` is off the list when the cascade runs, which therefore leaves it
      have hself : w₁.mem s = .live z.unlinked := by
        have hunlinked : (w.unlinkedWorld s z).mem s = .live z.unlinked := World.put_mem_self _ _ _
        unfold unlinkCascade at hc
        by_cases hserver : z.type = .server
        · rw [if_pos hserver] at hc
          obtain ⟨-, -, hm⟩ := cascade_frame (w := w.unlinkedWorld s z) hl hc
          rw [hm s hw.nodup.not_mem_erase, hunlinked]
        · rw [if_neg hserver] at hc
          cases hc
          exact hunlinked
      rw [ok_bind, ok_bind]
      exact bind_eq_ok.mpr ⟨z.unlinked, World.deref_eq_ok.mpr (by exact hself), rfl⟩

/-! ## Tearing down at once -/

/-- No listed socket other than `s` has the port of the server `z`. -/
def World.PortFree (w : World) (s : Sid) (z : ZSocket) : Prop :=
  z.type = .server → ∀ t ∈ w.socks, t ≠ s → ∀ y, w.mem t = .live y →
    y.laddr.sinPort ≠ z.laddr.sinPort

/-- A traversal whose every match leaves a poisoned node behind returns only without a match. -/
theorem forEachEntry_noMatch {teardown : Sid → World → Res World} {port : UInt16}
    (poisons : ∀ pos w w', w.WF → w.inLooping = false →
      zsocketCloseWith teardown pos none w = .ok w' →
      ∃ z, w'.mem pos = .live z ∧ z.node = .poisoned)
    {p l : List Sid} {fuel : ℕ} {w w' : World} (hw : w.WF) (hl : w.inLooping = false)
    (hs : w.socks = p ++ l) (h : forEachEntry (cascadeBody teardown port) fuel l.head? w = .ok w') :
    w' = w ∧ ∀ t ∈ l, ∀ y, w.mem t = .live y → y.laddr.sinPort ≠ port := by
  induction l generalizing p fuel with
  | nil => cases fuel <;> (cases h; exact ⟨rfl, by simp⟩)
  | cons pos l ih =>
      cases fuel with
      | zero => cases h
      | succ fuel =>
          obtain ⟨w₁, hb, h⟩ := bind_eq_ok.mp h
          obtain ⟨next, hnext, h⟩ := bind_eq_ok.mp h
          obtain ⟨z, hz, hb⟩ := bind_eq_ok.mp hb
          rw [World.deref_eq_ok] at hz
          by_cases hp : z.laddr.sinPort = port
          · rw [if_pos hp] at hb
            obtain ⟨y, hy, hyn⟩ := poisons pos w w₁ hw hl hb
            rw [World.listNext, World.deref_eq_ok.mpr hy, ok_bind, hyn] at hnext
            cases hnext
          · rw [if_neg hp] at hb
            cases hb
            rw [hw.listNext hs] at hnext
            cases hnext
            obtain ⟨rfl, hrest⟩ := ih (p := p ++ [pos]) (by rw [hs, List.append_assoc]; rfl) h
            refine ⟨rfl, fun t ht y hy => ?_⟩
            obtain rfl | ht := List.mem_cons.mp ht
            · obtain rfl : z = y := Slot.live.inj (hz.symm.trans hy)
              exact hp
            · exact hrest t ht y hy

/-- A traversal without a match changes nothing. -/
theorem forEachEntry_skip {teardown : Sid → World → Res World} {port : UInt16} {p l : List Sid}
    {fuel : ℕ} {w : World} (hw : w.WF) (hs : w.socks = p ++ l) (hf : l.length ≤ fuel)
    (hno : ∀ t ∈ l, ∀ y, w.mem t = .live y → y.laddr.sinPort ≠ port) :
    forEachEntry (cascadeBody teardown port) fuel l.head? w = .ok w := by
  induction l generalizing p fuel with
  | nil => cases fuel <;> rfl
  | cons pos l ih =>
      cases fuel with
      | zero => cases hf
      | succ fuel =>
          obtain ⟨z, hz, -⟩ := hw.live_of_mem (s := pos) (by rw [hs]; simp)
          refine bind_eq_ok.mpr ⟨w, ?_, bind_eq_ok.mpr ⟨l.head?, hw.listNext hs, ?_⟩⟩
          · refine bind_eq_ok.mpr ⟨z, World.deref_eq_ok.mpr hz, ?_⟩
            rw [if_neg (hno pos (by simp) z hz)]
            rfl
          · exact ih (p := p ++ [pos]) (by rw [hs, List.append_assoc]; rfl)
              (Nat.le_of_succ_le_succ hf) fun t ht => hno t (by simp [ht])

/-- **A teardown outside the loop** returns only when no listed socket has the port of the server
torn down; the induction is on the nesting of teardowns, since a match is torn down inside. -/
theorem _zsocketCloseFuel_immediate {fuel : ℕ} {s : Sid} {w w' : World} (hw : w.WF)
    (hl : w.inLooping = false) (h : _zsocketCloseFuel fuel s w = .ok w') :
    ∃ z, w.mem s = .live z ∧ z.node = .linked ∧ z.eof = true ∧ w.PortFree s z ∧
      w' = (w.unlinkedWorld s z).releasedWorld s z.unlinked := by
  induction fuel generalizing s w w' with
  | zero => cases h
  | succ fuel ih =>
      obtain ⟨z, hz, h⟩ := bind_eq_ok.mp h
      obtain ⟨_, he, h⟩ := bind_eq_ok.mp h
      obtain ⟨_, ht, h⟩ := bind_eq_ok.mp h
      obtain ⟨w₀, h₀, h⟩ := bind_eq_ok.mp h
      rw [World.deref_eq_ok] at hz
      replace he : z.eof = true := by simpa using he
      obtain ⟨z₀, hz₀, h₀⟩ := bind_eq_ok.mp h₀
      obtain rfl : z = z₀ := Slot.live.inj (hz.symm.trans (World.deref_eq_ok.mp hz₀))
      have hn : z.node = .linked := by
        refine hw.linked_of_eof hz he fun hp => ?_
        rw [hp] at h₀
        cases h₀
      rw [hn] at h₀
      obtain rfl : w.unlinkedWorld s z = w₀ := Except.ok.inj h₀
      obtain ⟨w₁, h₁, h⟩ := bind_eq_ok.mp h
      -- what a nested close leaves behind, by the induction hypothesis
      have poisons : ∀ pos v v', v.WF → v.inLooping = false →
          zsocketCloseWith (_zsocketCloseFuel fuel) pos none v = .ok v' →
          ∃ y, v'.mem pos = .live y ∧ y.node = .poisoned := by
        intro pos v v' hv hvl hc
        obtain ⟨y, hy, hye, hfd, hc⟩ := (zsocketCloseWith_immediate hvl).mp hc
        have hyn := hv.linked_of_open hy hye hfd.1
        obtain ⟨x, -, -, -, -, rfl⟩ := ih (hv.closedWorld hy hyn none) hvl hc
        exact ⟨_, World.put_mem_self _ _ _, rfl⟩
      have hskip : w₁ = w.unlinkedWorld s z ∧ w.PortFree s z := by
        by_cases hserver : z.type = .server
        · rw [if_pos hserver] at h₁
          obtain ⟨rfl, hno⟩ := forEachEntry_noMatch poisons (hw.unlinkedWorld hz he) hl (p := [])
            rfl h₁
          refine ⟨rfl, fun _ t ht hts y hy => hno t ?_ y ?_⟩
          · exact (List.mem_erase_of_ne hts).mpr ht
          · exact (World.put_mem_of_ne w hts _).trans hy
        · rw [if_neg hserver] at h₁
          cases h₁
          exact ⟨rfl, fun hs => absurd hs hserver⟩
      obtain ⟨rfl, hfree⟩ := hskip
      obtain ⟨z₁, hz₁, h⟩ := bind_eq_ok.mp h
      have hself : (w.unlinkedWorld s z).mem s = .live z.unlinked :=
        World.put_mem_self _ _ _
      obtain rfl : z.unlinked = z₁ :=
        Slot.live.inj (hself.symm.trans (World.deref_eq_ok.mp hz₁))
      cases h
      exact ⟨z, hz, hn, he, hfree, rfl⟩

/-- A teardown outside the loop returns when no listed socket has the port of the server. -/
theorem _zsocketClose_of_portFree {s : Sid} {z : ZSocket} {w : World} (hw : w.WF)
    (hz : w.mem s = .live z) (hn : z.node = .linked) (he : z.eof = true) (hfree : w.PortFree s z) :
    _zsocketClose s w =
      .ok ((w.unlinkedWorld s z).releasedWorld s z.unlinked) := by
  refine bind_eq_ok.mpr ⟨z, World.deref_eq_ok.mpr hz, bind_eq_ok.mpr ⟨⟨⟩, by simp [he], ?_⟩⟩
  refine bind_eq_ok.mpr ⟨⟨⟩, by simp [(hw.shape_linked hz hn).2.1], ?_⟩
  refine bind_eq_ok.mpr ⟨w.unlinkedWorld s z, ?_, ?_⟩
  · rw [World.listDel, World.deref_eq_ok.mpr hz, ok_bind, hn]
    rfl
  · refine bind_eq_ok.mpr ⟨w.unlinkedWorld s z, ?_, ?_⟩
    · by_cases hserver : z.type = .server
      · rw [if_pos hserver]
        refine forEachEntry_skip (hw.unlinkedWorld hz he) (p := []) rfl le_rfl ?_
        intro t ht y hy
        have ht' := (hw.nodup.mem_erase_iff).mp ht
        exact hfree hserver t ht'.2 ht'.1 y ((World.put_mem_of_ne w ht'.1 _).symm.trans hy)
      · rw [if_neg hserver]
    · exact bind_eq_ok.mpr ⟨z.unlinked,
        World.deref_eq_ok.mpr (World.put_mem_self _ _ _), rfl⟩

/-- **Closing outside the loop**: the close of an open socket returns exactly when no other listed
socket has the port of a server, and then the socket is closed, unlinked and released. -/
theorem zsocketClose_immediate {s : Sid} {cb : Option Cb} {w w' : World} (hw : w.WF)
    (hl : w.inLooping = false) :
    zsocketClose s cb w = .ok w' ↔
      ∃ z, w.mem s = .live z ∧ z.node = .linked ∧ z.eof = false ∧ World.InRange z.fd ∧
        w.PortFree s z ∧
        w' = (((w.closedWorld s z cb).unlinkedWorld s
          (z.closed cb)).releasedWorld s
          (z.closed cb).unlinked) := by
  have hself : ∀ z, (w.closedWorld s z cb).mem s =
      .live (z.closed cb) :=
    fun z => World.put_mem_self _ _ _
  have hfree : ∀ z, (w.closedWorld s z cb).PortFree s
      (z.closed cb) ↔ w.PortFree s z := by
    intro z
    have hother : ∀ t, t ≠ s → (w.closedWorld s z cb).mem t = w.mem t :=
      fun t ht => World.put_mem_of_ne _ ht _
    constructor
    · exact fun h hs t ht hts y hy => h hs t ht hts y ((hother t hts).trans hy)
    · exact fun h hs t ht hts y hy => h hs t ht hts y ((hother t hts).symm.trans hy)
  rw [zsocketClose, zsocketCloseWith_immediate hl]
  constructor
  · rintro ⟨z, hz, he, hfd, h⟩
    have hn := hw.linked_of_open hz he hfd.1
    obtain ⟨x, hx, -, -, hf, rfl⟩ := _zsocketCloseFuel_immediate (hw.closedWorld hz hn cb) hl h
    obtain rfl := Slot.live.inj ((hself z).symm.trans hx)
    exact ⟨z, hz, hn, he, hfd, (hfree z).mp hf, rfl⟩
  · rintro ⟨z, hz, hn, he, hfd, hf, rfl⟩
    exact ⟨z, hz, he, hfd, _zsocketClose_of_portFree (hw.closedWorld hz hn cb) (hself z) hn
      (hasFlag_or_self _ (by decide)) ((hfree z).mpr hf)⟩

end LibZio
