import LibZio.Foundation.Lists
import LibZio.Zsocket.Lifecycle

/-! # Well-formed worlds

The invariant of the heap, the list and the descriptors. A socket is initialised and untouched, on
the list with a descriptor of its own, or off the list for good; descriptors are never shared; and a
descriptor is watched only on behalf of a listed socket that is not EOF. Every move preserves it. -/

namespace LibZio

/-- What the position of a socket in its life says about its fields. -/
def ZSocket.Shape (z : ZSocket) : Prop :=
  match z.node with
  | .self => z.fd = -1 ∧ z.state = 0 ∧ z.wbuf = none ∧ z.readCb = none ∧ z.type = .none
  | .linked => 0 ≤ z.fd ∧ z.type ≠ .none ∧ (z.type = .server → z.connectionCb.isSome)
  | .poisoned => z.eof = true

/-- The invariant of the heap, the list and the descriptors. -/
structure World.WF (w : World) : Prop where
  nodup : w.socks.Nodup
  /-- The list holds exactly the live sockets whose node is linked. -/
  listed : ∀ s, s ∈ w.socks ↔ ∃ z, w.mem s = .live z ∧ z.node = .linked
  shape : ∀ s z, w.mem s = .live z → z.Shape
  /-- A descriptor in use is open. -/
  owned : ∀ s z, w.mem s = .live z → 0 ≤ z.fd → z.fd ∈ w.openFds
  /-- No two sockets share a descriptor. -/
  inj : ∀ s t y z, w.mem s = .live y → w.mem t = .live z → 0 ≤ y.fd → y.fd = z.fd → s = t
  /-- Only listed sockets that are not EOF are watched. -/
  read : ∀ d ∈ w.fdsRead,
    ∃ s z, w.mem s = .live z ∧ z.node = .linked ∧ z.eof = false ∧ z.fd = d
  write : ∀ d ∈ w.fdsWrite,
    ∃ s z, w.mem s = .live z ∧ z.node = .linked ∧ z.eof = false ∧ z.fd = d
  started : w.libInit = false → ∀ s, w.mem s = .unused

namespace World.WF

variable {w : World} {s : Sid} {z : ZSocket}

/-- A linked socket is listed. -/
theorem mem_socks (h : w.WF) (hz : w.mem s = .live z) (hn : z.node = .linked) : s ∈ w.socks :=
  (h.listed s).mpr ⟨z, hz, hn⟩

/-- A listed socket is live and linked. -/
theorem live_of_mem (h : w.WF) (hs : s ∈ w.socks) : ∃ z, w.mem s = .live z ∧ z.node = .linked :=
  (h.listed s).mp hs

/-- The node of a listed socket is linked. -/
theorem linked_of_mem (h : w.WF) (hs : s ∈ w.socks) (hz : w.mem s = .live z) :
    z.node = .linked := by
  obtain ⟨y, hy, hn⟩ := h.live_of_mem hs
  obtain rfl : z = y := Slot.live.inj (hz.symm.trans hy)
  exact hn

/-- A socket whose node is not linked is not listed. -/
theorem notMem_of_unlinked (h : w.WF) (hz : w.mem s = .live z) (hn : z.node ≠ .linked) :
    s ∉ w.socks :=
  fun hs => hn (h.linked_of_mem hs hz)

/-- What is not initialised is not listed. -/
theorem notMem_of_unused (h : w.WF) (hu : w.mem s = .unused) : s ∉ w.socks := by
  intro hs
  obtain ⟨y, hy, -⟩ := h.live_of_mem hs
  rw [hu] at hy
  cases hy

/-- Where there is a socket the library is initialised. -/
theorem libInit_of_live (h : w.WF) (hz : w.mem s = .live z) : w.libInit = true := by
  by_contra hi
  have unused := h.started (eq_false_of_ne_true hi) s
  rw [hz] at unused
  cases unused

/-- Where the list is cut at a socket, the socket is not in front, and taking it out joins the
parts. -/
theorem split (h : w.WF) {p l : List Sid} (hs : w.socks = p ++ s :: l) :
    s ∉ p ∧ w.socks.erase s = p ++ l := by
  have hnd := h.nodup
  rw [hs] at hnd ⊢
  exact ⟨notMem_front hnd, erase_middle hnd⟩

/-- A linked socket has a descriptor and a type. -/
theorem shape_linked (h : w.WF) (hz : w.mem s = .live z) (hn : z.node = .linked) :
    0 ≤ z.fd ∧ z.type ≠ .none ∧ (z.type = .server → z.connectionCb.isSome) := by
  have := h.shape s z hz
  rwa [ZSocket.Shape, hn] at this

/-- An untouched socket has no descriptor and no flag. -/
theorem shape_self (h : w.WF) (hz : w.mem s = .live z) (hn : z.node = .self) :
    z.fd = -1 ∧ z.state = 0 ∧ z.wbuf = none ∧ z.readCb = none ∧ z.type = .none := by
  have := h.shape s z hz
  rwa [ZSocket.Shape, hn] at this

/-- A socket off the list is EOF. -/
theorem shape_poisoned (h : w.WF) (hz : w.mem s = .live z) (hn : z.node = .poisoned) :
    z.eof = true := by
  have := h.shape s z hz
  rwa [ZSocket.Shape, hn] at this

/-- A socket with a descriptor in range that is not EOF is linked. -/
theorem linked_of_open (h : w.WF) (hz : w.mem s = .live z) (he : z.eof = false) (hfd : 0 ≤ z.fd) :
    z.node = .linked := by
  cases hn : z.node with
  | self => have := (h.shape_self hz hn).1; omega
  | linked => rfl
  | poisoned => rw [h.shape_poisoned hz hn] at he; cases he

/-- An EOF socket whose node is not poisoned is linked. -/
theorem linked_of_eof (h : w.WF) (hz : w.mem s = .live z) (he : z.eof = true)
    (hn : z.node ≠ .poisoned) : z.node = .linked := by
  cases hn' : z.node with
  | self =>
      rw [ZSocket.eof, (h.shape_self hz hn').2.1, show (0 : BitVec 32) = 0#32 from rfl,
        hasFlag_zero] at he
      cases he
  | linked => rfl
  | poisoned => exact absurd hn' hn

/-- Only a linked socket that is not EOF is watched for reading. -/
theorem open_of_read (h : w.WF) (hz : w.mem s = .live z) (hd : z.fd ∈ w.fdsRead) :
    z.node = .linked ∧ z.eof = false := by
  obtain ⟨t, y, hy, hyn, hye, hyfd⟩ := h.read _ hd
  obtain rfl := h.inj t s y z hy hz (h.shape_linked hy hyn).1 hyfd
  obtain rfl : y = z := Slot.live.inj (hy.symm.trans hz)
  exact ⟨hyn, hye⟩

/-- Only a linked socket that is not EOF is watched for writing. -/
theorem open_of_write (h : w.WF) (hz : w.mem s = .live z) (hd : z.fd ∈ w.fdsWrite) :
    z.node = .linked ∧ z.eof = false := by
  obtain ⟨t, y, hy, hyn, hye, hyfd⟩ := h.write _ hd
  obtain rfl := h.inj t s y z hy hz (h.shape_linked hy hyn).1 hyfd
  obtain rfl : y = z := Slot.live.inj (hy.symm.trans hz)
  exact ⟨hyn, hye⟩

/-- The world a program starts in is well formed. -/
theorem initial : World.WF {} where
  nodup := List.nodup_nil
  listed := fun _ => ⟨fun h => (List.not_mem_nil h).elim, fun ⟨_, h, _⟩ => nomatch h⟩
  shape := fun _ _ h => nomatch h
  owned := fun _ _ h => nomatch h
  inj := fun _ _ _ _ h => nomatch h
  read := fun d h => absurd h (Finset.notMem_empty d)
  write := fun d h => absurd h (Finset.notMem_empty d)
  started := fun _ _ => rfl

/-! ## Moves keep worlds well formed -/

/-- Well-formedness only looks at the heap, the list, the descriptors and the sets. -/
theorem congr {w' : World} (h : w.WF) (hmem : w'.mem = w.mem) (hsocks : w'.socks = w.socks)
    (hopen : w'.openFds = w.openFds) (hread : w'.fdsRead = w.fdsRead)
    (hwrite : w'.fdsWrite = w.fdsWrite) (hinit : w'.libInit = w.libInit) : w'.WF where
  nodup := hsocks ▸ h.nodup
  listed := by rw [hsocks, hmem]; exact h.listed
  shape := by rw [hmem]; exact h.shape
  owned := by rw [hmem, hopen]; exact h.owned
  inj := by rw [hmem]; exact h.inj
  read := by rw [hmem, hread]; exact h.read
  write := by rw [hmem, hwrite]; exact h.write
  started := by rw [hmem, hinit]; exact h.started

/-- What is the descriptor of an open socket other than `s` stays one when only `s` changes. -/
theorem openAs_other {mem mem' : Sid → Slot} {d : ℤ} (hother : ∀ t, t ≠ s → mem' t = mem t)
    (hs : ∀ y, mem s = .live y → y.node = .linked → y.eof = false → y.fd ≠ d) :
    (∃ t y, mem t = .live y ∧ y.node = .linked ∧ y.eof = false ∧ y.fd = d) →
      ∃ t y, mem' t = .live y ∧ y.node = .linked ∧ y.eof = false ∧ y.fd = d := by
  rintro ⟨t, y, hy, hn, he, hfd⟩
  have hts : t ≠ s := by
    rintro rfl
    exact hs y hy hn he hfd
  exact ⟨t, y, (hother t hts).trans hy, hn, he, hfd⟩

/-- **Replacing the fields of one socket.** The node and the descriptor stay, and if the descriptor
is watched afterwards the socket is open afterwards. -/
theorem replace {w' : World} (h : w.WF) (hz : w.mem s = .live z) (z' : ZSocket)
    (hfd : z'.fd = z.fd) (hnode : z'.node = z.node) (hshape : z'.Shape)
    (hmem : ∀ t, w'.mem t = if t = s then .live z' else w.mem t) (hsocks : w'.socks = w.socks)
    (hopen : w'.openFds = w.openFds) (hinit : w'.libInit = w.libInit)
    (hread : ∀ d ∈ w'.fdsRead, d ∈ w.fdsRead ∨ d = z.fd)
    (hwrite : ∀ d ∈ w'.fdsWrite, d ∈ w.fdsWrite ∨ d = z.fd)
    (hwatched : z.fd ∈ w'.fdsRead ∨ z.fd ∈ w'.fdsWrite → z'.node = .linked ∧ z'.eof = false) :
    w'.WF := by
  have hself : w'.mem s = .live z' := by rw [hmem, if_pos rfl]
  have hother : ∀ {t}, t ≠ s → w'.mem t = w.mem t := fun ht => by rw [hmem, if_neg ht]
  -- a descriptor watched for a socket other than `s` was watched for it before
  have keep : ∀ d, d ≠ z.fd →
      (∃ t y, w.mem t = .live y ∧ y.node = .linked ∧ y.eof = false ∧ y.fd = d) →
      ∃ t y, w'.mem t = .live y ∧ y.node = .linked ∧ y.eof = false ∧ y.fd = d := by
    intro d hd
    refine openAs_other (fun t ht => hother ht) fun y hy _ _ same => ?_
    obtain rfl : y = z := Slot.live.inj (hy.symm.trans hz)
    exact hd same.symm
  refine ⟨hsocks ▸ h.nodup, ?listed, ?shape, ?owned, ?inj, ?read, ?write, ?started⟩
  case listed =>
    intro t
    rw [hsocks, h.listed t]
    by_cases hts : t = s
    · subst hts
      rw [hself, hz]
      constructor
      · rintro ⟨y, hy, hyn⟩
        cases hy
        exact ⟨z', rfl, hnode.trans hyn⟩
      · rintro ⟨y, hy, hyn⟩
        cases hy
        exact ⟨z, rfl, hnode.symm.trans hyn⟩
    · rw [hother hts]
  case shape =>
    intro t y hy
    by_cases hts : t = s
    · subst hts
      obtain rfl : z' = y := Slot.live.inj (hself.symm.trans hy)
      exact hshape
    · exact h.shape t y (by rw [← hother hts, hy])
  case owned =>
    intro t y hy hyfd
    rw [hopen]
    by_cases hts : t = s
    · subst hts
      obtain rfl : z' = y := Slot.live.inj (hself.symm.trans hy)
      rw [hfd] at hyfd ⊢
      exact h.owned t z hz hyfd
    · exact h.owned t y (by rw [← hother hts, hy]) hyfd
  case inj =>
    -- the descriptors are as before, so sharing is as before
    have before : ∀ {t y}, w'.mem t = .live y → ∃ x, w.mem t = .live x ∧ x.fd = y.fd := by
      intro t y hy
      by_cases hts : t = s
      · subst hts
        obtain rfl : z' = y := Slot.live.inj (hself.symm.trans hy)
        exact ⟨z, hz, hfd.symm⟩
      · exact ⟨y, by rw [← hother hts, hy], rfl⟩
    intro t u y x hy hx hyfd hfds
    obtain ⟨y₀, hy₀, hyf⟩ := before hy
    obtain ⟨x₀, hx₀, hxf⟩ := before hx
    exact h.inj t u y₀ x₀ hy₀ hx₀ (by rw [hyf]; exact hyfd) (by rw [hyf, hxf, hfds])
  case read =>
    intro d hd
    by_cases hdz : d = z.fd
    · subst hdz
      obtain ⟨hn, he⟩ := hwatched (.inl hd)
      exact ⟨s, z', hself, hn, he, hfd⟩
    · exact keep d hdz (h.read d ((hread d hd).resolve_right hdz))
  case write =>
    intro d hd
    by_cases hdz : d = z.fd
    · subst hdz
      obtain ⟨hn, he⟩ := hwatched (.inr hd)
      exact ⟨s, z', hself, hn, he, hfd⟩
    · exact keep d hdz (h.write d ((hwrite d hd).resolve_right hdz))
  case started =>
    intro hi t
    have := h.started (hinit ▸ hi) s
    rw [hz] at this
    cases this

/-- Rewriting private data keeps a world well formed. -/
theorem rewritePrivate (h : w.WF) (hz : w.mem s = .live z) {z' : ZSocket}
    (same : z.SameControl z') : (w.put s z').WF := by
  have heof : z'.eof = z.eof := by rw [ZSocket.eof, same.state]
  have hshape : z'.Shape := by
    have hs := h.shape s z hz
    rw [ZSocket.Shape] at hs ⊢
    rw [same.node]
    cases hn : z.node with
    | self =>
        rw [hn] at hs
        obtain ⟨hfd, hstate, hwbuf, hread, htype⟩ := hs
        refine ⟨same.fd.trans hfd, same.state.trans hstate, ?_, same.readCb.trans hread,
          same.type.trans htype⟩
        have := same.wbuf
        rw [hwbuf] at this
        simpa using this
    | linked =>
        rw [hn] at hs
        refine ⟨same.fd ▸ hs.1, same.type ▸ hs.2.1, fun ht => ?_⟩
        rw [same.connectionCb]
        exact hs.2.2 (same.type.symm.trans ht)
    | poisoned =>
        rw [hn] at hs
        exact heof.trans hs
  refine h.replace hz z' same.fd same.node hshape (fun t => put_mem w s t z') rfl rfl rfl
    (fun d hd => .inl hd) (fun d hd => .inl hd) ?_
  rintro (hd | hd)
  · rw [same.node, heof]; exact h.open_of_read hz hd
  · rw [same.node, heof]; exact h.open_of_write hz hd

/-- Rewriting the state word of a listed socket without setting EOF keeps a world well formed. -/
theorem rewrite (h : w.WF) (hz : w.mem s = .live z) (hn : z.node = .linked) {z' : ZSocket}
    {m : BitVec 32} (mask : m &&& ZS_S_EOF = 0)
    (same : ZSocket.SameControl { z with state := z.state &&& m } z') : (w.put s z').WF := by
  have heof : z'.eof = false := by
    rw [ZSocket.eof, same.state]; exact hasFlag_and_of_disjoint _ mask
  have hn' : z'.node = .linked := same.node.trans hn
  obtain ⟨hfd, htype, hcb⟩ := h.shape_linked hz hn
  refine h.replace hz z' same.fd same.node ?_ (fun t => put_mem w s t z') rfl rfl rfl
    (fun d hd => .inl hd) (fun d hd => .inl hd) (fun _ => ⟨hn', heof⟩)
  rw [ZSocket.Shape, hn']
  refine ⟨by rw [same.fd]; exact hfd, by rw [same.type]; exact htype, fun hs => ?_⟩
  rw [same.connectionCb]
  exact hcb (same.type.symm.trans hs)

/-- Closing a listed socket keeps a world well formed. -/
theorem closedWorld (h : w.WF) (hz : w.mem s = .live z) (hn : z.node = .linked)
    (cb : Option Cb) : (w.closedWorld s z cb).WF := by
  obtain ⟨hfd, htype, hcb⟩ := h.shape_linked hz hn
  refine h.replace hz (z.closed cb) rfl rfl ?_
    (fun t => put_mem _ s t _) rfl rfl rfl (fun d hd => .inl (Finset.mem_of_mem_erase hd))
    (fun d hd => .inl (Finset.mem_of_mem_erase hd)) ?_
  · rw [ZSocket.Shape, ZSocket.closed_node, hn]; exact ⟨hfd, htype, hcb⟩
  · rintro (hd | hd)
    · exact absurd rfl (Finset.ne_of_mem_erase hd)
    · exact absurd rfl (Finset.ne_of_mem_erase hd)

/-- Taking a closed socket off the list keeps a world well formed. -/
theorem unlinkedWorld (h : w.WF) (hz : w.mem s = .live z) (he : z.eof = true) :
    (w.unlinkedWorld s z).WF := by
  have hself : (w.unlinkedWorld s z).mem s = .live z.unlinked := put_mem_self _ _ _
  have hother : ∀ {t}, t ≠ s → (w.unlinkedWorld s z).mem t = w.mem t :=
    fun ht => put_mem_of_ne _ ht _
  -- a socket other than `s` keeps what it had, and `s` is watched for nothing
  have keep : ∀ d, (∃ t y, w.mem t = .live y ∧ y.node = .linked ∧ y.eof = false ∧ y.fd = d) →
      ∃ t y, (w.unlinkedWorld s z).mem t = .live y ∧ y.node = .linked ∧ y.eof = false ∧
        y.fd = d := by
    intro d
    refine openAs_other (fun t ht => hother ht) fun y hy _ hye => ?_
    obtain rfl : y = z := Slot.live.inj (hy.symm.trans hz)
    rw [he] at hye
    cases hye
  have before : ∀ {t y}, (w.unlinkedWorld s z).mem t = .live y →
      ∃ x, w.mem t = .live x ∧ x.fd = y.fd := by
    intro t y hy
    by_cases hts : t = s
    · subst hts
      obtain rfl := Slot.live.inj (hself.symm.trans hy)
      exact ⟨z, hz, rfl⟩
    · exact ⟨y, by rw [← hother hts, hy], rfl⟩
  refine ⟨h.nodup.erase s, ?listed, ?shape, ?owned, ?inj, fun d hd => keep d (h.read d hd),
    fun d hd => keep d (h.write d hd), ?started⟩
  case listed =>
    intro t
    rw [show (w.unlinkedWorld s z).socks = w.socks.erase s from rfl, h.nodup.mem_erase_iff]
    by_cases hts : t = s
    · subst hts
      rw [hself]
      constructor
      · rintro ⟨hne, -⟩; exact absurd rfl hne
      · rintro ⟨y, hy, hyn⟩; cases hy; cases hyn
    · rw [hother hts, ← h.listed t]
      exact ⟨And.right, fun hm => ⟨hts, hm⟩⟩
  case shape =>
    intro t y hy
    by_cases hts : t = s
    · subst hts
      obtain rfl := Slot.live.inj (hself.symm.trans hy)
      exact he
    · exact h.shape t y (by rw [← hother hts, hy])
  case owned =>
    intro t y hy hyfd
    obtain ⟨x, hx, hxf⟩ := before hy
    exact hxf ▸ h.owned t x hx (by rw [hxf]; exact hyfd)
  case inj =>
    intro t u y x hy hx hyfd hfds
    obtain ⟨y₀, hy₀, hyf⟩ := before hy
    obtain ⟨x₀, hx₀, hxf⟩ := before hx
    exact h.inj t u y₀ x₀ hy₀ hx₀ (by rw [hyf]; exact hyfd) (by rw [hyf, hxf, hfds])
  case started =>
    intro hi
    exact absurd ((h.libInit_of_live hz).symm.trans hi) Bool.false_ne_true.symm

/-- Releasing a socket that is off the list keeps a world well formed. -/
theorem releasedWorld (h : w.WF) (hz : w.mem s = .live z) (hn : z.node = .poisoned) :
    (w.releasedWorld s z).WF := by
  have hself : (w.releasedWorld s z).mem s = .live z.torn := put_mem_self _ _ _
  have hother : ∀ {t}, t ≠ s → (w.releasedWorld s z).mem t = w.mem t :=
    fun ht => put_mem_of_ne _ ht _
  have hopen : (w.releasedWorld s z).openFds = w.openFds.erase z.fd := rfl
  have keep : ∀ d, (∃ t y, w.mem t = .live y ∧ y.node = .linked ∧ y.eof = false ∧ y.fd = d) →
      ∃ t y, (w.releasedWorld s z).mem t = .live y ∧ y.node = .linked ∧ y.eof = false ∧
        y.fd = d := by
    intro d
    refine openAs_other (fun t ht => hother ht) fun y hy hyn => ?_
    obtain rfl : y = z := Slot.live.inj (hy.symm.trans hz)
    rw [hn] at hyn
    cases hyn
  -- a socket that still has a descriptor is not `s`
  have ne_of_fd : ∀ {t y}, (w.releasedWorld s z).mem t = .live y → 0 ≤ y.fd → t ≠ s := by
    rintro t y hy hyfd rfl
    obtain rfl := Slot.live.inj (hself.symm.trans hy)
    exact absurd hyfd (by simp [ZSocket.torn])
  refine ⟨h.nodup, ?listed, ?shape, ?owned, ?inj, fun d hd => keep d (h.read d hd),
    fun d hd => keep d (h.write d hd), ?started⟩
  case listed =>
    intro t
    rw [show (w.releasedWorld s z).socks = w.socks from rfl, h.listed t]
    by_cases hts : t = s
    · subst hts
      rw [hself, hz]
      constructor
      · rintro ⟨y, hy, hyn⟩; cases hy; rw [hn] at hyn; cases hyn
      · rintro ⟨y, hy, hyn⟩; cases hy; rw [ZSocket.torn, hn] at hyn; cases hyn
    · rw [hother hts]
  case shape =>
    intro t y hy
    by_cases hts : t = s
    · subst hts
      obtain rfl := Slot.live.inj (hself.symm.trans hy)
      have := h.shape t z hz
      rw [ZSocket.Shape, hn] at this
      rw [ZSocket.Shape, show z.torn.node = .poisoned from hn]
      exact this
    · exact h.shape t y (by rw [← hother hts, hy])
  case owned =>
    intro t y hy hyfd
    have hts := ne_of_fd hy hyfd
    rw [hother hts] at hy
    rw [hopen]
    refine Finset.mem_erase.mpr ⟨fun hfds => hts ?_, h.owned t y hy hyfd⟩
    exact h.inj t s y z hy hz hyfd hfds
  case inj =>
    intro t u y x hy hx hyfd hfds
    have hts := ne_of_fd hy hyfd
    have hus := ne_of_fd hx (hfds ▸ hyfd)
    rw [hother hts] at hy
    rw [hother hus] at hx
    exact h.inj t u y x hy hx hyfd hfds
  case started =>
    intro hi
    exact absurd ((h.libInit_of_live hz).symm.trans hi) Bool.false_ne_true.symm

/-- Freeing a socket that is off the list keeps a world well formed. -/
theorem freed (h : w.WF) (hz : w.mem s = .live z) (hn : z.node = .poisoned) :
    (World.log { w with mem := Function.update w.mem s .freed } (.freed s)).WF := by
  have hmem : ∀ {t y}, Function.update w.mem s .freed t = .live y ↔ t ≠ s ∧ w.mem t = .live y := by
    intro t y
    by_cases hts : t = s
    · subst hts; simp
    · simp [hts]
  have keep : ∀ d, (∃ t y, w.mem t = .live y ∧ y.node = .linked ∧ y.eof = false ∧ y.fd = d) →
      ∃ t y, Function.update w.mem s .freed t = .live y ∧ y.node = .linked ∧ y.eof = false ∧
        y.fd = d := by
    intro d
    refine openAs_other (fun t ht => Function.update_of_ne ht ..) fun y hy hyn => ?_
    obtain rfl : y = z := Slot.live.inj (hy.symm.trans hz)
    rw [hn] at hyn
    cases hyn
  refine ⟨h.nodup, ?listed, ?shape, ?owned, ?inj, fun d hd => keep d (h.read d hd),
    fun d hd => keep d (h.write d hd), ?started⟩
  case listed =>
    intro t
    refine (h.listed t).trans ⟨?_, ?_⟩
    · rintro ⟨y, hy, hyn⟩
      refine ⟨y, hmem.mpr ⟨?_, hy⟩, hyn⟩
      rintro rfl
      obtain rfl : y = z := Slot.live.inj (hy.symm.trans hz)
      rw [hn] at hyn; cases hyn
    · rintro ⟨y, hy, hyn⟩
      exact ⟨y, (hmem.mp hy).2, hyn⟩
  case shape => exact fun t y hy => h.shape t y (hmem.mp hy).2
  case owned => exact fun t y hy => h.owned t y (hmem.mp hy).2
  case inj => exact fun t u y x hy hx => h.inj t u y x (hmem.mp hy).2 (hmem.mp hx).2
  case started =>
    intro hi
    exact absurd ((h.libInit_of_live hz).symm.trans hi) Bool.false_ne_true.symm

/-- Initialising a socket keeps a world well formed. -/
theorem initialised (h : w.WF) (hu : w.mem s = .unused) :
    (World.put (if w.libInit then w
      else { w with nfdsRead := 0, fdsRead := ∅, nfdsWrite := 0, fdsWrite := ∅, libInit := true })
      s .initial).WF := by
  have hmem : ∀ t, (World.put (if w.libInit then w
      else { w with nfdsRead := 0, fdsRead := ∅, nfdsWrite := 0, fdsWrite := ∅, libInit := true })
      s .initial).mem t = if t = s then .live .initial else w.mem t := by
    intro t; rw [put_mem]; cases w.libInit <;> rfl
  have keep : ∀ d, (∃ t y, w.mem t = .live y ∧ y.node = .linked ∧ y.eof = false ∧ y.fd = d) →
      ∃ t y, (if t = s then Slot.live ZSocket.initial else w.mem t) = .live y ∧ y.node = .linked ∧
        y.eof = false ∧ y.fd = d := by
    intro d
    refine openAs_other (fun t ht => if_neg ht) fun y hy => ?_
    rw [hu] at hy
    cases hy
  have before : ∀ {t y}, (if t = s then Slot.live ZSocket.initial else w.mem t) = .live y →
      t = s ∧ y = .initial ∨ t ≠ s ∧ w.mem t = .live y := by
    intro t y hy
    by_cases hts : t = s
    · rw [if_pos hts] at hy; exact .inl ⟨hts, (Slot.live.inj hy).symm⟩
    · rw [if_neg hts] at hy; exact .inr ⟨hts, hy⟩
  -- before the library is initialised there is no socket, hence nothing is watched
  have hread : ∀ d ∈ (if w.libInit then w.fdsRead else ∅), d ∈ w.fdsRead := by
    intro d hd; cases hi : w.libInit <;> simp_all
  have hwrite : ∀ d ∈ (if w.libInit then w.fdsWrite else ∅), d ∈ w.fdsWrite := by
    intro d hd; cases hi : w.libInit <;> simp_all
  refine ⟨?nodup, ?listed, ?shape, ?owned, ?inj, ?read, ?write, ?started⟩
  case nodup => rw [put_socks]; cases w.libInit <;> exact h.nodup
  case listed =>
    intro t
    rw [hmem, put_socks,
      show (if w.libInit then w
        else { w with nfdsRead := 0, fdsRead := ∅, nfdsWrite := 0, fdsWrite := ∅, libInit := true }
        ).socks = w.socks by cases w.libInit <;> rfl, h.listed t]
    by_cases hts : t = s
    · subst hts
      rw [if_pos rfl, hu]
      constructor
      · rintro ⟨y, hy, -⟩; cases hy
      · rintro ⟨y, hy, hyn⟩; cases hy; cases hyn
    · rw [if_neg hts]
  case shape =>
    intro t y hy
    rw [hmem] at hy
    obtain ⟨-, rfl⟩ | ⟨-, hy⟩ := before hy
    · exact ⟨rfl, rfl, rfl, rfl, rfl⟩
    · exact h.shape t y hy
  case owned =>
    intro t y hy hyfd
    rw [hmem] at hy
    have : y.fd ∈ w.openFds := by
      obtain ⟨-, rfl⟩ | ⟨-, hy⟩ := before hy
      · exact absurd hyfd (by decide)
      · exact h.owned t y hy hyfd
    simp only [put]
    cases w.libInit <;> exact this
  case inj =>
    intro t u y x hy hx hyfd hfds
    rw [hmem] at hy hx
    obtain ⟨-, rfl⟩ | ⟨-, hy⟩ := before hy
    · exact absurd hyfd (by decide)
    · obtain ⟨-, rfl⟩ | ⟨-, hx⟩ := before hx
      · exact absurd (hfds ▸ hyfd) (by decide)
      · exact h.inj t u y x hy hx hyfd hfds
  case read =>
    intro d hd
    simp only [hmem]
    refine keep d (h.read d (hread d ?_))
    cases hi : w.libInit with
    | true => simpa [put, hi] using hd
    | false => simp [put, hi] at hd
  case write =>
    intro d hd
    simp only [hmem]
    refine keep d (h.write d (hwrite d ?_))
    cases hi : w.libInit with
    | true => simpa [put, hi] using hd
    | false => simp [put, hi] at hd
  case started =>
    intro hi
    simp only [put] at hi
    cases hl : w.libInit <;> simp [hl] at hi

/-- Opening a socket keeps a world well formed. -/
theorem openedWorld (h : w.WF) (hz : w.mem s = .live z) (hn : z.node = .self) {z' : ZSocket}
    {fd : ℕ} (fresh : (fd : ℤ) ∉ w.openFds) (opened : z.OpenedAs z' fd) (source : Option Sid) :
    (w.openedWorld s z' fd source).WF := by
  have hself : (w.openedWorld s z' fd source).mem s = .live z' := put_mem_self _ _ _
  have hother : ∀ {t}, t ≠ s → (w.openedWorld s z' fd source).mem t = w.mem t :=
    fun ht => put_mem_of_ne _ ht _
  have hns : s ∉ w.socks := h.notMem_of_unlinked hz (by simp [hn])
  have keep : ∀ d, (∃ t y, w.mem t = .live y ∧ y.node = .linked ∧ y.eof = false ∧ y.fd = d) →
      ∃ t y, (w.openedWorld s z' fd source).mem t = .live y ∧ y.node = .linked ∧ y.eof = false ∧
        y.fd = d := by
    intro d
    refine openAs_other (fun t ht => hother ht) fun y hy hyn => ?_
    obtain rfl : y = z := Slot.live.inj (hy.symm.trans hz)
    rw [hn] at hyn
    cases hyn
  -- the new descriptor is nobody's
  have hnew : ∀ {t y}, w.mem t = .live y → y.fd ≠ fd := by
    rintro t y hy hyfd
    exact fresh (hyfd ▸ h.owned t y hy (by rw [hyfd]; exact Int.natCast_nonneg fd))
  refine ⟨List.nodup_cons.mpr ⟨hns, h.nodup⟩, ?listed, ?shape, ?owned, ?inj,
    fun d hd => keep d (h.read d hd),
    fun d hd => keep d (h.write d hd), ?started⟩
  case listed =>
    intro t
    rw [show (w.openedWorld s z' fd source).socks = s :: w.socks from rfl, List.mem_cons]
    by_cases hts : t = s
    · subst hts
      exact ⟨fun _ => ⟨z', hself, opened.node⟩, fun _ => .inl rfl⟩
    · simp only [hts, false_or]
      rw [h.listed t]
      simp only [hother hts]
  case shape =>
    intro t y hy
    by_cases hts : t = s
    · subst hts
      obtain rfl : z' = y := Slot.live.inj (hself.symm.trans hy)
      rw [ZSocket.Shape, opened.node]
      exact ⟨by rw [opened.fd]; exact Int.natCast_nonneg fd, opened.type, opened.connectionCb⟩
    · exact h.shape t y (by rw [← hother hts]; exact hy)
  case owned =>
    intro t y hy hyfd
    by_cases hts : t = s
    · subst hts
      obtain rfl : z' = y := Slot.live.inj (hself.symm.trans hy)
      rw [opened.fd]
      exact Finset.mem_insert_self _ _
    · exact Finset.mem_insert_of_mem (h.owned t y (by rw [← hother hts]; exact hy) hyfd)
  case inj =>
    intro t u y x hy hx hyfd hfds
    by_cases hts : t = s <;> by_cases hus : u = s
    · rw [hts, hus]
    · subst hts
      obtain rfl : z' = y := Slot.live.inj (hself.symm.trans hy)
      rw [hother hus] at hx
      exact absurd (hfds.symm.trans opened.fd) (hnew hx)
    · subst hus
      obtain rfl : z' = x := Slot.live.inj (hself.symm.trans hx)
      rw [hother hts] at hy
      exact absurd (hfds.trans opened.fd) (hnew hy)
    · exact h.inj t u y x (by rw [← hother hts]; exact hy)
        (by rw [← hother hus]; exact hx) hyfd hfds
  case started =>
    intro hi
    exact absurd ((h.libInit_of_live hz).symm.trans hi) Bool.false_ne_true.symm

end World.WF

/-- **Every move keeps a world well formed.** -/
theorem Move.wf {a : Act} {w w' : World} (m : Move a w w') (h : w.WF) : w'.WF := by
  cases m with
  | log e he => exact h.congr rfl rfl rfl rfl rfl rfl
  | mode b => exact h.congr rfl rfl rfl rfl rfl rfl
  | init hu => exact h.initialised hu
  | «open» live node fresh opened accepted => exact h.openedWorld live node fresh opened _
  | @watch _ s z cb live node eof off fd hcb =>
      refine h.replace live { z with state := z.state ||| ZS_S_READ_ENABLE, readCb := cb }
        rfl rfl ?_ (fun t => World.put_mem _ s t _) rfl rfl rfl ?_ (fun d hd => .inl hd)
        (fun _ => ⟨node, ?_⟩)
      · have := h.shape s z live
        rw [ZSocket.Shape, node] at this ⊢
        exact this
      · exact fun d hd => (Finset.mem_insert.mp hd).symm
      · rw [ZSocket.eof, hasFlag_or_of_disjoint _ (by decide)]; exact eof
  | @unwatch _ s z live node eof on fd =>
      refine h.replace live
        { z with state := z.state &&& ~~~ZS_S_READ_ENABLE, readCb := none }
        rfl rfl ?_ (fun t => World.put_mem _ s t _) rfl rfl rfl
        (fun d hd => .inl (Finset.mem_of_mem_erase hd)) (fun d hd => .inl hd) (fun _ => ⟨node, ?_⟩)
      · have := h.shape s z live
        rw [ZSocket.Shape, node] at this ⊢
        exact this
      · rw [ZSocket.eof, hasFlag_andNot_of_disjoint _ (by decide)]; exact eof
  | @watchWrite _ s z q live node eof off fd =>
      refine h.replace live
        { z with state := z.state ||| ZS_S_WRITE_ENABLE, wbuf := some q }
        rfl rfl ?_ (fun t => World.put_mem _ s t _) rfl rfl rfl (fun d hd => .inl hd) ?_
        (fun _ => ⟨node, ?_⟩)
      · have := h.shape s z live
        rw [ZSocket.Shape, node] at this ⊢
        exact this
      · exact fun d hd => (Finset.mem_insert.mp hd).symm
      · rw [ZSocket.eof, hasFlag_or_of_disjoint _ (by decide)]; exact eof
  | touch live same rbuf => exact h.rewritePrivate live same
  | receive live same => exact h.rewritePrivate live same
  | recvFail live node eof same => exact h.rewrite live node (by decide) same
  | close live node eof fd => exact h.closedWorld live node _
  | abandon live node eof fd mask same =>
      exact (h.rewrite live node mask same).closedWorld (World.put_mem_self _ _ _)
        (same.node.trans node) none
  | recount live node eof fd mask same =>
      exact (h.rewrite live node mask same).closedWorld (World.put_mem_self _ _ _)
        (same.node.trans node) none
  | unlink live node eof => exact h.unlinkedWorld live eof
  | release live node => exact h.releasedWorld live node
  | free live node => exact h.freed live node

/-- Every sequence of moves keeps a world well formed. -/
theorem Moves.wf {P : Act → Prop} {w w' : World} (m : Moves P w w') (h : w.WF) : w'.WF := by
  induction m with
  | refl => exact h
  | tail _ hm ih =>
      obtain ⟨_, _, hm⟩ := hm
      exact hm.wf ih

end LibZio
