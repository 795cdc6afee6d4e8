import LibZio.Zsocket.Runs

/-! # The counters

The six counters of `zsocket_status` against the list: the counter of a type is the number of listed
sockets of that type that are not EOF, and a socket is counted as closed once. Two error branches
break this, by rewriting the state word of a socket that is already closed and closing it again
(`Act.recount`); in every run that keeps clear of them, and in which fewer than `2 ^ 31` sockets are
opened, the counters are right in every world the program can look at. -/

namespace LibZio

/-! ## Counting -/

namespace World

/-- Whether `s` is a socket of the type that is not EOF. -/
def isOpen (w : World) (type : ZsType) (s : Sid) : Bool :=
  match w.mem s with
  | .live z => !z.eof && decide (z.type = type)
  | _ => false

/-- How many listed sockets of the type are open and not yet closed. -/
def openOf (w : World) (type : ZsType) : ℕ := w.socks.countP (w.isOpen type)

/-- How many sockets have been opened. -/
def openings (w : World) : ℕ :=
  w.trace.countP fun | .opened _ => true | _ => false

/-- How many closes there have been. -/
def closings (w : World) : ℕ :=
  w.trace.countP fun | .closed _ _ _ => true | _ => false

/-- How often `s` has been closed. -/
def closingsOf (w : World) (s : Sid) : ℕ :=
  w.trace.countP fun | .closed t _ _ => decide (t = s) | _ => false

end World

/-! ## What a move does to the numbers -/

/-- What a move does to the counters, the list and the record of what happened: nothing, or it opens
or closes one socket. -/
inductive Tally (w w' : World) : Prop
  | same (status : w'.status = w.status) (open_ : ∀ type, w'.openOf type = w.openOf type)
      (openings : w'.openings = w.openings) (closings : w'.closings = w.closings)
  | opened (type : ZsType) (typed : type ≠ .none) (status : w'.status = w.status.countOpen type)
      (open_ : ∀ t, w'.openOf t = w.openOf t + if t = type then 1 else 0)
      (openings : w'.openings = w.openings + 1) (closings : w'.closings = w.closings)
  | closed (type : ZsType) (typed : type ≠ .none) (status : w'.status = w.status.countClose type)
      (open_ : ∀ t, w.openOf t = w'.openOf t + if t = type then 1 else 0)
      (openings : w'.openings = w.openings) (closings : w'.closings = w.closings + 1)

section

variable {w w' : World} {s : Sid} {z z' : ZSocket}

/-- Whether a socket is open is read from its object. -/
theorem isOpen_congr {t : Sid} (h : w'.mem t = w.mem t) (type : ZsType) :
    w'.isOpen type t = w.isOpen type t := by
  rw [World.isOpen, World.isOpen, h]

/-- The numbers of open sockets depend on the list and on what its sockets are. -/
theorem openOf_congr (hsocks : w'.socks = w.socks)
    (h : ∀ t ∈ w.socks, ∀ type, w'.isOpen type t = w.isOpen type t) (type : ZsType) :
    w'.openOf type = w.openOf type := by
  rw [World.openOf, World.openOf, hsocks]
  exact List.countP_congr fun t ht => by rw [h t ht type]

/-- What happens to an object off the list changes no number. -/
theorem openOf_away (hs : s ∉ w.socks) (hsocks : w'.socks = w.socks)
    (hmem : ∀ t, t ≠ s → w'.mem t = w.mem t) (type : ZsType) : w'.openOf type = w.openOf type :=
  openOf_congr hsocks (fun t ht => isOpen_congr (hmem t fun hc => hs (hc ▸ ht))) type

/-- Replacing the fields of a socket by others of the same type, EOF or not as before, changes no
number. -/
theorem openOf_put (hz : w.mem s = .live z) (hmem : ∀ t, t ≠ s → w'.mem t = w.mem t)
    (hz' : w'.mem s = .live z') (hsocks : w'.socks = w.socks) (heof : z'.eof = z.eof)
    (htype : z'.type = z.type) (type : ZsType) : w'.openOf type = w.openOf type := by
  refine openOf_congr hsocks (fun t _ type => ?_) type
  by_cases ht : t = s
  · subst ht
    rw [World.isOpen, World.isOpen, hz, hz']
    dsimp only
    rw [heof, htype]
  · exact isOpen_congr (hmem t ht) type

/-- Closing an open socket lowers the number of its type by one. -/
theorem openOf_close (hw : w.WF) (hz : w.mem s = .live z) (hn : z.node = .linked)
    (he : z.eof = false) (hmem : ∀ t, t ≠ s → w'.mem t = w.mem t) (hz' : w'.mem s = .live z')
    (hsocks : w'.socks = w.socks) (he' : z'.eof = true) (type : ZsType) :
    w.openOf type = w'.openOf type + if type = z.type then 1 else 0 := by
  have hother : ∀ t ∈ w.socks, t ≠ s → w.isOpen type t = w'.isOpen type t :=
    fun t _ ht => (isOpen_congr (hmem t ht) type).symm
  have hafter : w'.isOpen type s = false := by simp [World.isOpen, hz', he']
  rw [World.openOf, World.openOf, hsocks]
  by_cases ht : type = z.type
  · rw [if_pos ht]
    exact countP_flip hw.nodup (hw.mem_socks hz hn)
      (by simp [World.isOpen, hz, he, ht]) hafter hother
  · rw [if_neg ht]
    refine List.countP_congr fun t hts => ?_
    by_cases hs : t = s
    · subst hs
      rw [hafter]
      simp [World.isOpen, hz, he, Ne.symm ht]
    · rw [hother t hts hs]

/-- Opening a socket raises the number of its type by one. -/
theorem openOf_open {fd : ℕ} {source : Option Sid} (hw : w.WF) (hz : w.mem s = .live z)
    (hn : z.node = .self) (opened : z.OpenedAs z' fd) (type : ZsType) :
    (w.openedWorld s z' fd source).openOf type =
      w.openOf type + if type = z'.type then 1 else 0 := by
  have hns : s ∉ w.socks := hw.notMem_of_unlinked hz (by simp [hn])
  have heof : z'.eof = false := by
    rw [ZSocket.eof, opened.state, (hw.shape_self hz hn).2.1]
    exact hasFlag_zero _
  have hself : (w.openedWorld s z' fd source).isOpen type s = decide (z'.type = type) := by
    rw [World.isOpen, show (w.openedWorld s z' fd source).mem s = .live z' from
      World.put_mem_self _ _ _]
    simp [heof]
  have hrest : w.socks.countP ((w.openedWorld s z' fd source).isOpen type) =
      w.socks.countP (w.isOpen type) := by
    refine List.countP_congr fun t ht => ?_
    have hts : t ≠ s := fun hc => hns (hc ▸ ht)
    have hmem : (w.openedWorld s z' fd source).mem t = w.mem t := World.put_mem_of_ne _ hts _
    rw [isOpen_congr hmem]
  rw [World.openOf, show (w.openedWorld s z' fd source).socks = s :: w.socks from rfl,
    List.countP_cons, hrest, hself, World.openOf]
  by_cases ht : type = z'.type
  · simp [ht]
  · simp [ht, Ne.symm ht]

/-- Taking a closed socket off the list changes no number. -/
theorem openOf_unlinked (hw : w.WF) (hz : w.mem s = .live z) (hn : z.node = .linked)
    (he : z.eof = true) (type : ZsType) : (w.unlinkedWorld s z).openOf type = w.openOf type := by
  have hbefore : w.isOpen type s = false := by simp [World.isOpen, hz, he]
  have hrest : (w.socks.erase s).countP ((w.unlinkedWorld s z).isOpen type) =
      (w.socks.erase s).countP (w.isOpen type) := by
    refine List.countP_congr fun t ht => ?_
    have hts := ((hw.nodup.mem_erase_iff).mp ht).1
    have hmem : (w.unlinkedWorld s z).mem t = w.mem t := World.put_mem_of_ne _ hts _
    rw [isOpen_congr hmem]
  rw [World.openOf, show (w.unlinkedWorld s z).socks = w.socks.erase s from rfl, hrest,
    World.openOf, (List.perm_cons_erase (hw.mem_socks hz hn)).countP_eq, List.countP_cons, hbefore]
  rfl

namespace Tally

/-- A socket keeps its type, and is EOF as before. -/
theorem rewritten (hz : w.mem s = .live z) (hmem : ∀ t, t ≠ s → w'.mem t = w.mem t)
    (hz' : w'.mem s = .live z') (hsocks : w'.socks = w.socks) (heof : z'.eof = z.eof)
    (htype : z'.type = z.type) (hstatus : w'.status = w.status) (htrace : w'.trace = w.trace) :
    Tally w w' :=
  .same hstatus (openOf_put hz hmem hz' hsocks heof htype) (by rw [World.openings, htrace]; rfl)
    (by rw [World.closings, htrace]; rfl)

/-- The private data of a socket changes. -/
theorem privateData (hz : w.mem s = .live z) (same : z.SameControl z') : Tally w (w.put s z') :=
  rewritten hz (fun _ ht => World.put_mem_of_ne _ ht _) (World.put_mem_self _ _ _) rfl
    (by rw [ZSocket.eof, same.state]) same.type rfl rfl

/-- Something is observed. -/
theorem log {e : Event} (plain : e.Plain) : Tally w (w.log e) := by
  refine .same rfl (fun _ => rfl) ?_ ?_
  · rw [World.openings, World.openings, show (w.log e).trace = e :: w.trace from rfl,
      List.countP_cons]
    cases e <;> first | rfl | cases plain
  · rw [World.closings, World.closings, show (w.log e).trace = e :: w.trace from rfl,
      List.countP_cons]
    cases e <;> first | rfl | cases plain

/-- An object is initialised. -/
theorem init (hw : w.WF) (hu : w.mem s = .unused) :
    Tally w (World.put (if w.libInit then w
      else { w with nfdsRead := 0, fdsRead := ∅, nfdsWrite := 0, fdsWrite := ∅, libInit := true })
      s .initial) := by
  refine .same ?_ (openOf_away (hw.notMem_of_unused hu) ?_ fun t ht => ?_) ?_ ?_
  · cases w.libInit <;> rfl
  · rw [World.put_socks]
    cases w.libInit <;> rfl
  · rw [World.put_mem_of_ne _ ht]
    cases w.libInit <;> rfl
  · cases w.libInit <;> rfl
  · cases w.libInit <;> rfl

/-- A socket is opened, perhaps accepted from a server. -/
theorem openedWorld {fd : ℕ} {source : Option Sid} (hw : w.WF) (hz : w.mem s = .live z)
    (hn : z.node = .self) (opened : z.OpenedAs z' fd) : Tally w (w.openedWorld s z' fd source) := by
  have htrace : (w.openedWorld s z' fd source).trace =
      (source.map (Event.accepted · s)).toList ++ .opened s :: w.trace := rfl
  refine .opened z'.type opened.type rfl (openOf_open hw hz hn opened) ?_ ?_
  · rw [World.openings, World.openings, htrace]
    cases source <;> simp
  · rw [World.closings, World.closings, htrace]
    cases source <;> simp

/-- An open socket is closed, perhaps after its object was rewritten. -/
theorem closedWorld {v : World} {cb : Option Cb} (hw : w.WF) (hz : w.mem s = .live z)
    (hn : z.node = .linked) (he : z.eof = false) (htype : z'.type = z.type)
    (hsocks : v.socks = w.socks) (hstatus : v.status = w.status) (htrace : v.trace = w.trace)
    (hmem : ∀ t, t ≠ s → v.mem t = w.mem t) : Tally w (v.closedWorld s z' cb) := by
  have hrest : ∀ t, t ≠ s → (v.closedWorld s z' cb).mem t = w.mem t :=
    fun t ht => (World.put_mem_of_ne _ ht _).trans (hmem t ht)
  have htrace' : (v.closedWorld s z' cb).trace = .closed s cb v.inLooping :: w.trace :=
    congrArg (_ :: ·) htrace
  refine .closed z.type (hw.shape_linked hz hn).2.1 ?_ ?_ ?_ ?_
  · rw [← htype, ← hstatus]
    rfl
  · exact openOf_close hw hz hn he hrest (World.put_mem_self _ _ _) hsocks (ZSocket.closed_eof _ _)
  · rw [World.openings, World.openings, htrace']
    exact List.countP_cons_of_neg Bool.false_ne_true
  · rw [World.closings, World.closings, htrace']
    exact List.countP_cons_of_pos rfl

end Tally

/-- **What a move does to the numbers**, unless it counts a close twice. -/
theorem Move.tally {a : Act} (m : Move a w w') (hw : w.WF) (h : ∀ s, a ≠ .recount s) :
    Tally w w' := by
  cases m with
  | log e plain => exact .log plain
  | mode b => exact .same rfl (fun _ => rfl) rfl rfl
  | init unused => exact .init hw unused
  | «open» live node fresh opened accepted => exact .openedWorld hw live node opened
  | watch live node eof off fd hcb =>
      exact .rewritten live (fun _ ht => World.put_mem_of_ne _ ht _) (World.put_mem_self _ _ _) rfl
        (hasFlag_or_of_disjoint _ (by decide)) rfl rfl rfl
  | unwatch live node eof on fd =>
      exact .rewritten live (fun _ ht => World.put_mem_of_ne _ ht _) (World.put_mem_self _ _ _) rfl
        (hasFlag_andNot_of_disjoint _ (by decide)) rfl rfl rfl
  | watchWrite live node eof off fd =>
      exact .rewritten live (fun _ ht => World.put_mem_of_ne _ ht _) (World.put_mem_self _ _ _) rfl
        (hasFlag_or_of_disjoint _ (by decide)) rfl rfl rfl
  | touch live same rbuf => exact .privateData live same
  | receive live same => exact .privateData live same
  | recvFail live node eof same =>
      -- the mask of a failed `recv` has no EOF bit, and the socket was not EOF before
      refine .rewritten live (fun _ ht => World.put_mem_of_ne _ ht _) (World.put_mem_self _ _ _) rfl
        ?_ same.type rfl rfl
      rw [eof, ZSocket.eof, same.state]
      exact hasFlag_and_of_disjoint _ (by decide)
  | close live node eof fd =>
      exact .closedWorld hw live node eof rfl rfl rfl rfl fun _ _ => rfl
  | abandon live node eof fd mask same =>
      exact .closedWorld hw live node eof same.type rfl rfl rfl fun _ ht =>
        World.put_mem_of_ne _ ht _
  | recount => exact absurd rfl (h _)
  | unlink live node eof => exact .same rfl (openOf_unlinked hw live node eof) rfl rfl
  | release live node =>
      refine .same rfl (openOf_away (hw.notMem_of_unlinked live (by simp [node])) rfl ?_) rfl rfl
      exact fun _ ht => World.put_mem_of_ne _ ht _
  | «free» live node =>
      refine .same rfl (openOf_away (hw.notMem_of_unlinked live (by simp [node])) rfl ?_) rfl rfl
      exact fun _ ht => Function.update_of_ne ht ..

/-- **What a move does to the closes of a socket**: only a close of the socket adds one, and then
the socket was not closed before. -/
theorem Move.closingsOf {a : Act} (m : Move a w w') (h : ∀ s, a ≠ .recount s) (t : Sid) :
    w'.closingsOf t = w.closingsOf t ∨
      w'.closingsOf t = w.closingsOf t + 1 ∧ ¬ w.Over t ∧ w'.Over t := by
  have same : w'.trace = w.trace → w'.closingsOf t = w.closingsOf t := fun htr => by
    rw [World.closingsOf, htr]; rfl
  have close :
      ∀ {s z y cb b}, w.mem s = .live z → z.eof = false → w'.mem s = .live (ZSocket.closed y cb) →
        w'.trace = .closed s cb b :: w.trace → w'.closingsOf t = w.closingsOf t ∨
          w'.closingsOf t = w.closingsOf t + 1 ∧ ¬ w.Over t ∧ w'.Over t := by
    intro s z y cb b hz he hz' htr
    by_cases hst : s = t
    · subst hst
      refine .inr ⟨?_, ?_, .inr ⟨_, hz', ZSocket.closed_eof _ _⟩⟩
      · rw [World.closingsOf, htr]
        exact List.countP_cons_of_pos (by simp)
      · rintro (hf | ⟨x, hx, hxe⟩)
        · rw [hz] at hf; cases hf
        · obtain rfl : z = x := Slot.live.inj (hz.symm.trans hx)
          rw [he] at hxe; cases hxe
    · refine .inl ?_
      rw [World.closingsOf, htr]
      exact List.countP_cons_of_neg (by simpa using hst)
  cases m with
  | log e he =>
      refine .inl ?_
      rw [World.closingsOf, World.closingsOf, show (w.log e).trace = e :: w.trace from rfl,
        List.countP_cons]
      cases e <;> first | rfl | cases he
  | init hu => exact .inl (same (by cases w.libInit <;> rfl))
  | @«open» _ s z z' fd source =>
      refine .inl ?_
      rw [World.closingsOf, World.closingsOf, show (w.openedWorld s z' fd source).trace =
        (source.map (Event.accepted · s)).toList ++ .opened s :: w.trace from rfl]
      cases source <;> simp
  | close live node eof fd => exact close live eof (World.put_mem_self _ _ _) rfl
  | abandon live node eof fd mask same => exact close live eof (World.put_mem_self _ _ _) rfl
  | recount => exact absurd rfl (h _)
  | mode | watch | unwatch | watchWrite | touch | receive | recvFail | unlink =>
    exact .inl (same rfl)
  | @release _ s z => exact .inl rfl
  | @«free» _ s z => exact .inl rfl

end

/-! ## The invariant -/

/-- The counter of open sockets of a type. -/
def Status.current (st : Status) : ZsType → BitVec 32
  | .none => 0
  | .client => st.nrCurrentClient
  | .server => st.nrCurrentServer
  | .connection => st.nrCurrentConnection

/-- Opening a socket raises the counter of its type, and the counters of all types. -/
theorem Status.countOpen_spec (st : Status) {type : ZsType} (typed : type ≠ .none) :
    (∀ t, (st.countOpen type).current t = st.current t + if t = type then 1 else 0) ∧
      (st.countOpen type).nrCurrent = st.nrCurrent + 1 ∧
      (st.countOpen type).nrTotal = st.nrTotal + 1 ∧
      (st.countOpen type).nrClosed = st.nrClosed := by
  cases type with
  | none => exact absurd rfl typed
  | client | server | connection =>
      refine ⟨fun t => ?_, rfl, rfl, rfl⟩
      cases t <;> simp [Status.current, Status.countOpen]

/-- Closing a socket lowers the counter of its type, and counts the close. -/
theorem Status.countClose_spec (st : Status) {type : ZsType} (typed : type ≠ .none) :
    (∀ t, (st.countClose type).current t = st.current t - if t = type then 1 else 0) ∧
      (st.countClose type).nrCurrent = st.nrCurrent - 1 ∧
      (st.countClose type).nrTotal = st.nrTotal ∧
      (st.countClose type).nrClosed = st.nrClosed + 1 := by
  cases type with
  | none => exact absurd rfl typed
  | client | server | connection =>
      refine ⟨fun t => ?_, rfl, rfl, rfl⟩
      cases t <;> simp [Status.current, Status.countClose]

/-- How many listed sockets are open and not yet closed. -/
def World.openAll (w : World) : ℕ := w.openOf .client + w.openOf .server + w.openOf .connection

/-- One more socket of some type is one more socket. -/
theorem openAll_succ {w w' : World} {type : ZsType} (typed : type ≠ .none)
    (h : ∀ t, w'.openOf t = w.openOf t + if t = type then 1 else 0) :
    w'.openAll = w.openAll + 1 := by
  unfold World.openAll
  rw [h .client, h .server, h .connection]
  cases type with
  | none => exact absurd rfl typed
  | client | server | connection => simp; omega

/-- The counters modulo `2 ^ 32`, the balance of openings and closes, and that no socket is closed
twice. -/
structure World.Tallied (w : World) : Prop where
  current : ∀ t, w.status.current t = BitVec.ofNat 32 (if t = .none then 0 else w.openOf t)
  all : w.status.nrCurrent = BitVec.ofNat 32 w.openAll
  total : w.status.nrTotal = BitVec.ofNat 32 w.openings
  closed : w.status.nrClosed = BitVec.ofNat 32 w.closings
  balance : w.openings = w.closings + w.openAll
  once : ∀ s, w.closingsOf s ≤ 1
  fresh : ∀ s, ¬ w.Over s → w.closingsOf s = 0

/-- Counting up. -/
theorem ofNat_succ_bitVec (n : ℕ) : BitVec.ofNat 32 (n + 1) = BitVec.ofNat 32 n + 1 := by
  rw [BitVec.ofNat_add]; rfl

/-- Counting down. -/
theorem ofNat_succ_sub_one (n : ℕ) : BitVec.ofNat 32 (n + 1) - 1 = BitVec.ofNat 32 n := by
  rw [ofNat_succ_bitVec, BitVec.add_sub_cancel]

/-- The world a program starts in is tallied. -/
theorem World.Tallied.initial : World.Tallied {} where
  current := fun t => by cases t <;> rfl
  all := rfl
  total := rfl
  closed := rfl
  balance := rfl
  once := fun _ => Nat.zero_le 1
  fresh := fun _ _ => rfl

/-- **Every move that does not count a close twice keeps the counters.** -/
theorem World.Tallied.move {a : Act} {w w' : World} (h : w.Tallied) (m : Move a w w') (hw : w.WF)
    (hno : ∀ s, a ≠ .recount s) : w'.Tallied := by
  -- a socket that is over has been closed once, and stays over
  have honce : ∀ s, w'.closingsOf s ≤ 1 ∧ (¬ w'.Over s → w'.closingsOf s = 0) := by
    intro s
    obtain hsame | ⟨hsucc, hover, hover'⟩ := m.closingsOf hno s
    · rw [hsame]
      exact ⟨h.once s, fun hno => h.fresh s fun ho => hno (m.still_over ho)⟩
    · rw [hsucc, h.fresh s hover]
      exact ⟨le_rfl, fun hno => absurd hover' hno⟩
  obtain ⟨hcurrent, hall, htotal, hclosed, hbalance, -, -⟩ := h
  cases m.tally hw hno with
  | same status open_ openings closings =>
      have hsum : w'.openAll = w.openAll := by simp only [World.openAll, open_]
      refine ⟨fun t => ?_, ?_, ?_, ?_, ?_, fun s => (honce s).1, fun s => (honce s).2⟩
      · rw [status, open_, hcurrent]
      · rw [status, hsum, hall]
      · rw [status, openings, htotal]
      · rw [status, closings, hclosed]
      · rw [openings, closings, hsum, hbalance]
  | opened type typed status open_ openings closings =>
      obtain ⟨hcur, hnow, htot, hcl⟩ := w.status.countOpen_spec typed
      have hsum := openAll_succ typed open_
      refine ⟨fun t => ?_, ?_, ?_, ?_, ?_, fun s => (honce s).1, fun s => (honce s).2⟩
      · rw [status, hcur, hcurrent, open_]
        by_cases ht : t = type
        · subst ht
          rw [if_pos rfl, if_neg typed, if_neg typed, if_pos rfl, ofNat_succ_bitVec]
        · rw [if_neg ht, if_neg ht]
          simp
      · rw [status, hnow, hall, hsum, ofNat_succ_bitVec]
      · rw [status, htot, htotal, openings, ofNat_succ_bitVec]
      · rw [status, hcl, hclosed, closings]
      · rw [openings, closings, hsum, hbalance, Nat.add_assoc]
  | closed type typed status open_ openings closings =>
      obtain ⟨hcur, hnow, htot, hcl⟩ := w.status.countClose_spec typed
      have hsum := openAll_succ typed open_
      refine ⟨fun t => ?_, ?_, ?_, ?_, ?_, fun s => (honce s).1, fun s => (honce s).2⟩
      · rw [status, hcur, hcurrent, open_]
        by_cases ht : t = type
        · subst ht
          rw [if_pos rfl, if_neg typed, if_neg typed, if_pos rfl, ofNat_succ_sub_one]
        · rw [if_neg ht, if_neg ht]
          simp
      · rw [status, hnow, hall, hsum, ofNat_succ_sub_one]
      · rw [status, htot, htotal, openings]
      · rw [status, hcl, hclosed, closings, ofNat_succ_bitVec]
      · rw [openings, closings, hbalance, hsum]; omega

/-! ## Runs -/

/-- The counters are right: each type's counter is the number of its open sockets, the sums agree,
every close is counted and no socket is closed twice. -/
structure World.Counted (w : World) : Prop where
  client : w.status.nrCurrentClient.toInt = w.openOf .client
  server : w.status.nrCurrentServer.toInt = w.openOf .server
  connection : w.status.nrCurrentConnection.toInt = w.openOf .connection
  current : w.status.nrCurrent.toInt = w.status.nrCurrentClient.toInt +
    w.status.nrCurrentServer.toInt + w.status.nrCurrentConnection.toInt
  total : w.status.nrTotal.toInt = w.status.nrCurrent.toInt + w.status.nrClosed.toInt
  closed : w.status.nrClosed.toInt = w.closings
  once : ∀ s, w.closingsOf s ≤ 1

/-- A counter below `2 ^ 31` is read back exactly. -/
theorem toInt_ofNat_of_lt {n : ℕ} (h : n < 2 ^ 31) : (BitVec.ofNat 32 n).toInt = n :=
  intOfSize_of_lt h

/-- Below `2 ^ 31` openings the counters are right as integers. -/
theorem World.Tallied.counted {w : World} (h : w.Tallied) (few : w.openings < 2 ^ 31) :
    w.Counted := by
  have hbalance := h.balance
  have hall : w.openAll = w.openOf .client + w.openOf .server + w.openOf .connection := rfl
  have hclient : w.status.nrCurrentClient.toInt = w.openOf .client := by
    rw [show w.status.nrCurrentClient = _ from h.current .client]
    exact toInt_ofNat_of_lt (n := w.openOf .client) (by omega)
  have hserver : w.status.nrCurrentServer.toInt = w.openOf .server := by
    rw [show w.status.nrCurrentServer = _ from h.current .server]
    exact toInt_ofNat_of_lt (n := w.openOf .server) (by omega)
  have hconnection : w.status.nrCurrentConnection.toInt = w.openOf .connection := by
    rw [show w.status.nrCurrentConnection = _ from h.current .connection]
    exact toInt_ofNat_of_lt (n := w.openOf .connection) (by omega)
  have hcurrent : w.status.nrCurrent.toInt = w.openAll := by
    rw [h.all, toInt_ofNat_of_lt (by omega)]
  have htotal : w.status.nrTotal.toInt = w.openings := by
    rw [h.total, toInt_ofNat_of_lt few]
  have hclosed : w.status.nrClosed.toInt = w.closings := by
    rw [h.closed, toInt_ofNat_of_lt (by omega)]
  refine ⟨hclient, hserver, hconnection, ?_, ?_, hclosed, h.once⟩
  · rw [hcurrent, hclient, hserver, hconnection, hall]; push_cast; rfl
  · rw [htotal, hcurrent, hclosed, hbalance]; push_cast; omega

end LibZio
