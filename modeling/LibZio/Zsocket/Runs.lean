import LibZio.Zsocket.Steps

/-! # Runs of the machine

A step of the machine makes the moves its input allows and keeps the machine *sound*: the world is
well formed, and inside a traversal the library is looping and the cursors stand on the list. What
is proved per move then holds in every state reached. -/

namespace LibZio

/-! ## Sound states -/

/-- Where the cursors stand. -/
def Sys.Placed (c : Sys) : Prop :=
  match c.ctl with
  | .idle => True
  | .poll pos _ _ _ => c.world.inLooping = true ∧ ∀ p, pos = some p → p ∈ c.world.socks
  | .close pos n => c.world.inLooping = true ∧
      ∀ p, pos = some p → ∃ l m, c.world.socks = l ++ p :: m ∧ n = m.head?

/-- The world is well formed and the cursors are in place. -/
structure Sys.Sound (c : Sys) : Prop where
  wf : c.world.WF
  placed : c.Placed

/-- The kinds of moves a step may make. -/
def Sys.may (c : Sys) (i : Input) (a : Act) : Prop :=
  match c.ctl, i with
  | .idle, .call x => x.may c.world.inLooping a
  | .idle, .loop _ _ => a = .mode ∨ a = .log
  | .poll (some pos) R _ _, .visit io => ∃ z, c.world.mem pos = .live z ∧ visitMay pos z R io a
  | .close (some pos) _, .closeVisit io =>
      ∃ z, c.world.mem pos = .live z ∧ closeVisitMay pos z c.world io a
  | .close none _, .endClose => a = .mode ∨ a = .log
  | _, _ => False

section

variable {w w' : World} {s pos : Sid} {z : ZSocket}

/-- A sequence that unlinks nothing only lists further sockets in front. -/
theorem Moves.socks_append {P : Act → Prop} (m : Moves P w w') (h : ∀ s, ¬ P (.unlink s)) :
    ∃ l, w'.socks = l ++ w.socks := by
  induction m with
  | refl => exact ⟨[], rfl⟩
  | tail _ hm ih =>
      obtain ⟨a, ha, hm⟩ := hm
      obtain ⟨l, hl⟩ := ih
      rw [hm.socks_eq]
      cases a with
      | «open» s => exact ⟨s :: l, by rw [Act.socks, hl]; rfl⟩
      | unlink s => exact absurd ha (h s)
      | log | mode | init | watch | unwatch | watchWrite | touch | receive | recvFail | close
      | abandon | recount | release | free => exact ⟨l, hl⟩

/-- An iteration of `zsocket_do_close` leaves the list alone, or takes the visited socket off it. -/
theorem doCloseVisit_socks {io : CloseIo} (hw : w.WF) (hl : w.inLooping = true)
    (hz : w.mem pos = .live z) (hn : z.node = .linked) (h : doCloseVisit pos io w = .ok w') :
    w' = w ∧ z.stale io.now = false ∧ z.eof = false ∨ w'.socks = w.socks.erase pos := by
  obtain ⟨hs, he, rfl⟩ | ⟨-, he, h⟩ | ⟨-, -, h⟩ := (doCloseVisit_eq_ok hw hl hz hn).mp h
  · exact .inl ⟨rfl, hs, he⟩
  · exact .inr (reap_frame hw.roster hl h).2.2
  · exact .inr (reap_frame (hw.timedOutWorld hz hn).roster hl h).2.2

/-- An iteration of `zsocket_do_close` does not change the mode. -/
theorem not_closeVisitMay_mode {io : CloseIo} : ¬ closeVisitMay pos z w io .mode := by
  rintro (⟨h, -⟩ | ⟨h, -⟩ | ⟨-, h | h | h | ⟨t, -, -, h, -⟩⟩) <;> cases h

/-- The traversal of the deferred closes starts with its cursors in place. -/
theorem closeStart_placed {n : Option Sid} (hw : w.WF) (hl : w.inLooping = true)
    (h : w.listNextSafe w.listFirst = .ok n) : Sys.Placed ⟨.close w.listFirst n, w⟩ := by
  refine ⟨hl, fun p hp => ?_⟩
  have hsocks : w.socks = [] ++ p :: w.socks.tail := (List.head?_eq_some_iff.mp hp).elim
    fun t ht => by rw [ht]; rfl
  refine ⟨[], w.socks.tail, hsocks, ?_⟩
  rw [show w.listFirst = some p from hp, World.listNextSafe, hw.listNext hsocks] at h
  exact (Except.ok.inj h).symm

/-- After an iteration the saved successor is still in place. -/
theorem listNextSafe_placed {n next : Option Sid} {l m : List Sid} (hw : w.WF) (hw' : w'.WF)
    (hs : w.socks = l ++ pos :: m) (hn : n = m.head?)
    (hsocks : w'.socks = w.socks ∨ w'.socks = w.socks.erase pos)
    (h : w'.listNextSafe n = .ok next) :
    ∀ p, n = some p → ∃ l' m', w'.socks = l' ++ p :: m' ∧ next = m'.head? := by
  rintro p rfl
  obtain ⟨m', rfl⟩ : ∃ m', m = p :: m' :=
    (List.head?_eq_some_iff.mp hn.symm).elim fun t ht => ⟨t, ht⟩
  obtain ⟨l', hl'⟩ : ∃ l', w'.socks = l' ++ p :: m' := by
    obtain hsame | herase := hsocks
    · exact ⟨l ++ [pos], by rw [hsame, hs, List.append_assoc]; rfl⟩
    · exact ⟨l, by rw [herase, (hw.split hs).2]⟩
  rw [World.listNextSafe, hw'.listNext hl'] at h
  exact ⟨l', m', hl', (Except.ok.inj h).symm⟩

end

/-- What `select` may answer: the descriptors reported as ready are registered ones, and there is at
least one of them. -/
theorem pollSelect_cases {timeout : ℤ} {select : SelectIo} {sel : Selected} {w w' : World}
    (h : pollSelect timeout select w = .ok (sel, w')) :
    (∃ nfds sec usec, w' = w.log (.select nfds sec usec)) ∧
      ∀ R W left, sel = .ready R W left → R ⊆ w.fdsRead ∧ W ⊆ w.fdsWrite := by
  unfold pollSelect at h
  generalize (if w.nfdsRead > w.nfdsWrite then w.nfdsRead else w.nfdsWrite) = nfds at h
  cases select with
  | timeout | interrupted | failed => cases h; exact ⟨⟨_, _, _, rfl⟩, nofun⟩
  | ready R W =>
      dsimp only at h
      by_cases hok : R ⊆ w.fdsRead.filter (· < nfds) ∧ W ⊆ w.fdsWrite.filter (· < nfds) ∧
          0 < R.card + W.card
      · rw [if_pos (by exact hok)] at h
        cases h
        refine ⟨⟨_, _, _, rfl⟩, ?_⟩
        rintro R' W' left ⟨⟩
        exact ⟨hok.1.trans (Finset.filter_subset _ _), hok.2.1.trans (Finset.filter_subset _ _)⟩
      · rw [if_neg (by exact hok)] at h
        cases h

/-! ## Steps -/

/-- The world in which `zsocket_loop` has been entered and its `select` has returned. -/
abbrev World.looped (w : World) (nfds sec usec : ℤ) : World :=
  World.log { w with inLooping := true } (.select nfds sec usec)

/-- The ways through a step. -/
inductive ZioStep : Sys → Input → Sys → Prop
  /-- The program makes a call. -/
  | call {w w' : World} {x : Api} (run : x.run w = .ok w') :
      ZioStep ⟨.idle, w⟩ (.call x) ⟨.idle, w'⟩
  /-- `select` fails, and the loop returns. -/
  | failed {w : World} {timeout : ℤ} {select : SelectIo} (nfds sec usec : ℤ) :
      ZioStep ⟨.idle, w⟩ (.loop timeout select)
        ⟨.idle, (w.looped nfds sec usec).log (.loopReturn (-1))⟩
  /-- `select` reports nothing, and the deferred closes start. -/
  | quiet {w : World} {timeout nfds sec usec : ℤ} {select : SelectIo} {n : Option Sid}
      (first : (w.looped nfds sec usec).listNextSafe w.listFirst = .ok n) :
      ZioStep ⟨.idle, w⟩ (.loop timeout select) ⟨.close w.listFirst n, w.looped nfds sec usec⟩
  /-- Descriptors are ready, and the visits of the poll start. -/
  | ready {w : World} {timeout nfds sec usec left : ℤ} {select : SelectIo} {R W : Finset ℤ}
      (read : R ⊆ w.fdsRead) (write : W ⊆ w.fdsWrite) :
      ZioStep ⟨.idle, w⟩ (.loop timeout select)
        ⟨.poll w.listFirst R W left, w.looped nfds sec usec⟩
  /-- The poll visits a socket, and goes on to the next. -/
  | visit {w v : World} {pos : Sid} {next : Option Sid} {R W : Finset ℤ} {left left' : ℤ}
      {io : VisitIo} {b : Bool} (run : pollVisit R W pos io w = .ok (b, v))
      (goesOn : v.listNext pos = .ok next) :
      ZioStep ⟨.poll (some pos) R W left, w⟩ (.visit io) ⟨.poll next R W left', v⟩
  /-- The poll visits the last ready socket, and the deferred closes start. -/
  | lastVisit {w v : World} {pos : Sid} {n : Option Sid} {R W : Finset ℤ} {left : ℤ} {io : VisitIo}
      {b : Bool} (run : pollVisit R W pos io w = .ok (b, v))
      (first : v.listNextSafe v.listFirst = .ok n) :
      ZioStep ⟨.poll (some pos) R W left, w⟩ (.visit io) ⟨.close v.listFirst n, v⟩
  /-- The poll is at the end of the list, and the deferred closes start. -/
  | endPoll {w : World} {n : Option Sid} {R W : Finset ℤ} {left : ℤ}
      (first : w.listNextSafe w.listFirst = .ok n) :
      ZioStep ⟨.poll none R W left, w⟩ .endPoll ⟨.close w.listFirst n, w⟩
  /-- The deferred closes visit a socket, and go on to the one saved before. -/
  | closeVisit {w w' : World} {pos : Sid} {n next : Option Sid} {io : CloseIo}
      (run : doCloseVisit pos io w = .ok w') (goesOn : w'.listNextSafe n = .ok next) :
      ZioStep ⟨.close (some pos) n, w⟩ (.closeVisit io) ⟨.close n next, w'⟩
  /-- The deferred closes are at the end of the list, and the loop returns. -/
  | endClose {w : World} {n : Option Sid} :
      ZioStep ⟨.close none n, w⟩ .endClose
        ⟨.idle, World.log { w with inLooping := false } (.loopReturn 0)⟩

/-- The entry into the loop takes one of its ways. -/
theorem Sys.step_loop {c' : Sys} {w : World} {timeout : ℤ} {select : SelectIo}
    (h : Sys.step ⟨.idle, w⟩ (.loop timeout select) = .ok c') :
    ZioStep ⟨.idle, w⟩ (.loop timeout select) c' := by
  obtain ⟨⟨sel, v⟩, hsel, h⟩ := bind_eq_ok.mp h
  obtain ⟨⟨nfds, sec, usec, rfl⟩, hready⟩ := pollSelect_cases hsel
  cases sel with
  | done rc =>
      dsimp only at h
      by_cases hrc : rc = -1
      · rw [if_pos hrc] at h
        cases h
        exact .failed nfds sec usec
      · rw [if_neg hrc] at h
        obtain ⟨n, first, h⟩ := bind_eq_ok.mp h
        cases h
        exact .quiet first
  | ready R W left =>
      cases h
      obtain ⟨read, write⟩ := hready R W left rfl
      exact .ready read write

/-- An iteration of the poll takes one of its ways. -/
theorem Sys.step_visit {c' : Sys} {w : World} {pos : Sid} {R W : Finset ℤ} {left : ℤ} {io : VisitIo}
    (h : Sys.step ⟨.poll (some pos) R W left, w⟩ (.visit io) = .ok c') :
    ZioStep ⟨.poll (some pos) R W left, w⟩ (.visit io) c' := by
  obtain ⟨⟨handled, v⟩, run, h⟩ := bind_eq_ok.mp h
  dsimp only at h
  generalize (if handled then left - 1 else left) = left' at h
  by_cases hbreak : (handled && decide (left' = 0)) = true
  · rw [if_pos hbreak] at h
    obtain ⟨n, first, h⟩ := bind_eq_ok.mp h
    cases h
    exact .lastVisit run first
  · rw [if_neg hbreak] at h
    obtain ⟨next, hnext, h⟩ := bind_eq_ok.mp h
    cases h
    exact .visit run hnext

/-- Every step takes one of its ways. -/
theorem Sys.step_ways {c c' : Sys} {i : Input} (h : c.step i = .ok c') : ZioStep c i c' := by
  obtain ⟨ctl, w⟩ := c
  cases ctl with
  | idle =>
      cases i with
      | call x =>
          obtain ⟨w', run, h⟩ := bind_eq_ok.mp h
          cases h
          exact .call run
      | loop timeout select => exact Sys.step_loop h
      | visit | endPoll | closeVisit | endClose => cases h
  | poll pos R W left =>
      cases pos with
      | none =>
          cases i with
          | endPoll =>
              obtain ⟨n, first, h⟩ := bind_eq_ok.mp h
              cases h
              exact .endPoll first
          | call | loop | visit | closeVisit | endClose => cases h
      | some pos =>
          cases i with
          | visit io => exact Sys.step_visit h
          | call | loop | endPoll | closeVisit | endClose => cases h
  | close pos n =>
      cases pos with
      | none =>
          cases i with
          | endClose => cases h; exact .endClose
          | call | loop | visit | endPoll | closeVisit => cases h
      | some pos =>
          cases i with
          | closeVisit io =>
              obtain ⟨w', run, h⟩ := bind_eq_ok.mp h
              obtain ⟨next, hnext, h⟩ := bind_eq_ok.mp h
              cases h
              exact .closeVisit run hnext
          | call | loop | visit | endPoll | endClose => cases h

/-- Entering the loop sets the mode and asks `select`. -/
theorem World.looped_moves {w : World} {nfds sec usec : ℤ} :
    Moves (fun a => a = .mode ∨ a = .log) w (w.looped nfds sec usec) := by
  have hmode : Move .mode w { w with inLooping := true } := .mode true
  exact (Moves.one (.inl rfl) hmode).append (.one (.inr rfl) (.log _ trivial))

/-- The moves of a visit of the poll, and what it leaves of the list. -/
theorem pollVisit_step {w v : World} {pos : Sid} {R W : Finset ℤ} (left : ℤ) {io : VisitIo}
    {b : Bool} (hw : w.WF) (hl : w.inLooping = true) (hpos : pos ∈ w.socks)
    (run : pollVisit R W pos io w = .ok (b, v)) :
    Moves (Sys.may ⟨.poll (some pos) R W left, w⟩ (.visit io)) w v ∧ v.WF ∧ v.inLooping = true ∧
      ∃ l, v.socks = l ++ w.socks := by
  obtain ⟨z, hz, hn⟩ := hw.live_of_mem hpos
  have hm := pollVisit_moves hw hl hz run
  exact ⟨hm.mono fun a ha => ⟨z, hz, ha⟩, hm.wf hw, (hm.inLooping_eq not_visitMay_mode).trans hl,
    hm.socks_append fun s => not_visitMay_unlink⟩

/-- **A step makes the moves its input allows, and keeps the machine sound.** -/
theorem Sys.step_moves {c c' : Sys} {i : Input} (hc : c.Sound) (h : c.step i = .ok c') :
    Moves (c.may i) c.world c'.world ∧ c'.Sound := by
  obtain ⟨hw, hp⟩ := hc
  cases Sys.step_ways h with
  | call run =>
      have hm := Api.run_moves _ hw run
      exact ⟨hm, hm.wf hw, trivial⟩
  | @failed w _ _ nfds sec usec =>
      have hreturn : Move .log (w.looped nfds sec usec)
          ((w.looped nfds sec usec).log (.loopReturn (-1))) := .log _ trivial
      have hm := World.looped_moves.append (.one (.inr rfl) hreturn)
      exact ⟨hm, hm.wf hw, trivial⟩
  | quiet first =>
      exact ⟨World.looped_moves, World.looped_moves.wf hw,
        closeStart_placed (World.looped_moves.wf hw) rfl first⟩
  | ready read write =>
      refine ⟨World.looped_moves, World.looped_moves.wf hw, rfl, fun p hp => ?_⟩
      exact List.mem_of_mem_head? (Option.mem_def.mpr hp)
  | @visit w v pos next R W left left' io b run hnext =>
      obtain ⟨hl, hmem⟩ := hp
      obtain ⟨hm, hv, hvl, l, hsocks⟩ := pollVisit_step left hw hl (hmem pos rfl) run
      refine ⟨hm, hv, hvl, fun p hp => ?_⟩
      -- the visit lists sockets in front only, so that the next one was behind `pos` before
      obtain ⟨l', m, hs⟩ := List.append_of_mem (hmem pos rfl)
      rw [hs, ← List.append_assoc] at hsocks
      rw [hv.listNext hsocks] at hnext
      obtain rfl := Except.ok.inj hnext
      rw [hsocks]
      exact List.mem_append_right _
        (List.mem_cons_of_mem _ (List.mem_of_mem_head? (Option.mem_def.mpr hp)))
  | @lastVisit w v pos n R W left io b run first =>
      obtain ⟨hl, hmem⟩ := hp
      obtain ⟨hm, hv, hvl, -⟩ := pollVisit_step left hw hl (hmem pos rfl) run
      exact ⟨hm, hv, closeStart_placed hv hvl first⟩
  | endPoll first => exact ⟨.none, hw, closeStart_placed hw hp.1 first⟩
  | @closeVisit w w' pos n next io run hnext =>
      obtain ⟨hl, hcur⟩ := hp
      obtain ⟨l, m, hs, hn⟩ := hcur pos rfl
      obtain ⟨z, hz, hlinked⟩ := hw.live_of_mem (s := pos) (by rw [hs]; simp)
      have hm := doCloseVisit_moves hw hl hz hlinked run
      have hw' := hm.wf hw
      have hsocks : w'.socks = w.socks ∨ w'.socks = w.socks.erase pos := by
        obtain ⟨rfl, -⟩ | herase := doCloseVisit_socks hw hl hz hlinked run
        · exact .inl rfl
        · exact .inr herase
      refine ⟨hm.mono fun a ha => ⟨z, hz, ha⟩, hw',
        (hm.inLooping_eq not_closeVisitMay_mode).trans hl, ?_⟩
      exact listNextSafe_placed hw hw' hs hn hsocks hnext
  | @endClose w n =>
      have hmode : Move .mode w { w with inLooping := false } := .mode false
      have hm : Moves (Sys.may ⟨.close none n, w⟩ .endClose) w
          (World.log { w with inLooping := false } (.loopReturn 0)) :=
        (Moves.one (.inl rfl) hmode).append (.one (.inr rfl) (.log _ trivial))
      exact ⟨hm, hm.wf hw, trivial⟩

/-! ## Reached states -/

/-- **Every state reached is sound.** -/
theorem Sys.sound {G : Sys → Input → Prop} {c : Sys} (r : zio.Reach G c) : c.Sound :=
  r.invariant (I := Sys.Sound) ⟨World.WF.initial, by exact trivial⟩
    fun _ _ _ _ hc _ h => (Sys.step_moves hc h).2

/-- **Invariants of worlds**: what holds when the program starts and is preserved by every move that
a guarded step may make holds in the world of every state reached. -/
theorem Sys.worldInvariant {G : Sys → Input → Prop} {I : World → Prop} (init : I {})
    (move : ∀ c i a w w', c.Sound → G c i → c.may i a → Move a w w' → w.WF → I w → I w') {c : Sys}
    (r : zio.Reach G c) : I c.world := by
  refine r.invariant (I := fun c => I c.world) init fun s i s' hr hI hg h => ?_
  have hs := Sys.sound hr
  exact (Sys.step_moves hs h).1.preserve hs.wf hI fun a w w' ha hm hw hi =>
    move s i a w w' hs hg ha hm hw hi

/-! ## Inside callbacks -/

/-- The worlds in which the callback of a step finds itself: the `connection_cb` or `read_cb` of the
step `i` from `c` has made some of its calls. -/
inductive Sys.Inside (c : Sys) (i : Input) : World → Prop
  /-- In the `connection_cb` of a server. -/
  | connection {pos : Sid} {R W : Finset ℤ} {left : ℤ} {io : VisitIo} {z : ZSocket} {cb : Cb}
      {calls rest : List Api} {v : World} (ctl : c.ctl = .poll (some pos) R W left)
      (input : i = .visit io) (live : c.world.mem pos = .live z) (readable : z.fd ∈ R)
      (script : io.recv.script = calls ++ rest)
      (run : runScript calls (c.world.log (.connectionCb pos cb)) = .ok v) : Inside c i v
  /-- In the `read_cb` of a client or a connection. -/
  | read {pos : Sid} {R W : Finset ℤ} {left : ℤ} {io : VisitIo} {z : ZSocket} {asked : ℕ} {q : QBuf}
      {cb : Cb} {buf : List UInt8} {len : ℤ} {calls rest : List Api} {v : World}
      (ctl : c.ctl = .poll (some pos) R W left) (input : i = .visit io)
      (live : c.world.mem pos = .live z) (readable : z.fd ∈ R) (type : z.type ≠ .none)
      (eof : z.eof = false) (script : io.recv.script = calls ++ rest)
      (run : runScript calls (c.world.offered pos z io.recv asked q cb buf len) = .ok v) :
      Inside c i v

/-- A callback has made moves its step may make. -/
theorem Sys.inside_moves {c : Sys} {i : Input} {v : World} (hc : c.Sound) (h : c.Inside i v) :
    Moves (c.may i) c.world v := by
  obtain ⟨ctl, w⟩ := c
  obtain ⟨hw, hp⟩ := hc
  have calls_may : ∀ {calls rest script : List Api} {a : Act}, script = calls ++ rest →
      scriptMay calls a → scriptMay script a := by
    rintro calls rest script a rfl ⟨c, hc, ha⟩
    exact ⟨c, by simp [hc], ha⟩
  cases h with
  | @connection pos R W left io z cb calls rest v hctl input live readable script run =>
      dsimp only at hctl
      subst hctl input
      have hlog : Move .log w (w.log (.connectionCb pos cb)) := .log _ trivial
      refine (Moves.one ⟨z, live, .inl ⟨readable, .inl (.inl rfl)⟩⟩ hlog).append
        ((runScript_moves (hlog.wf hw) hp.1 run).mono fun a ha => ?_)
      exact ⟨z, live, .inl ⟨readable, .inr (.inl (calls_may script ha))⟩⟩
  | @read pos R W left io z asked q cb buf len calls rest v hctl input live readable type eof script
      run =>
      dsimp only at hctl
      subst hctl input
      have hhead : Moves (recvHeadMay pos io.recv) w (w.offered pos z io.recv asked q cb buf len) :=
        offered_moves live (hw.linked_of_typed live type eof) eof
      refine (hhead.mono fun a ha => ?_).append
        ((runScript_moves (hhead.wf hw) hp.1 run).mono fun a ha => ?_)
      · exact ⟨z, live, .inl ⟨readable, .inl ha⟩⟩
      · exact ⟨z, live, .inl ⟨readable, .inr (.inl (calls_may script ha))⟩⟩

/-- The worlds the program can look at, in runs whose steps satisfy `G`: between two steps, and in
the callbacks of a step. -/
inductive Sys.Seen (G : Sys → Input → Prop) : World → Prop
  | between {c : Sys} (r : zio.Reach G c) : Seen G c.world
  | inside {c : Sys} {i : Input} {v : World} (r : zio.Reach G c) (guard : G c i)
      (h : c.Inside i v) : Seen G v

/-- An invariant of worlds holds in every world the program can look at. -/
theorem Sys.Seen.invariant {G : Sys → Input → Prop} {I : World → Prop} (init : I {})
    (move : ∀ c i a w w', c.Sound → G c i → c.may i a → Move a w w' → w.WF → I w → I w') {v : World}
    (h : Sys.Seen G v) : I v := by
  cases h with
  | between r => exact Sys.worldInvariant init move r
  | inside r guard h =>
      have hs := Sys.sound r
      exact (Sys.inside_moves hs h).preserve hs.wf (Sys.worldInvariant init move r)
        fun a w w' ha hm hw hi => move _ _ a w w' hs guard ha hm hw hi

/-- Every world the program can look at is well formed. -/
theorem Sys.Seen.wf {G : Sys → Input → Prop} {v : World} (h : Sys.Seen G v) : v.WF := by
  cases h with
  | between r => exact (Sys.sound r).wf
  | inside r _ h => exact (Sys.inside_moves (Sys.sound r) h).wf (Sys.sound r).wf

/-! ## Inputs for concrete runs -/

/-- A visit of the poll in which the callback makes the calls `script`. -/
def VisitIo.calling (script : List Api) : VisitIo where
  recv :=
    { callocSelf := true, callocRaw := true, recv := some [], now := 0, script := script, nr := 0,
      grow := none }
  send := none

/-- A program starts a server `0` on `port`, with descriptor `3`, and accepts the connection `1`,
with descriptor `4`, in a first call of `zsocket_loop`. -/
def acceptOne (port : UInt16) : List Input :=
  [.call (.init 0),
    .call (.listen 0 ⟨0, port⟩ (some 0) ⟨some 3, true⟩),
    .loop 1000 (.ready {3} ∅),
    .visit (.calling [.accept 0 ⟨some 1, some (4, ⟨0, 4000⟩), ⟨0, port⟩, 0⟩]),
    .closeVisit ⟨0, []⟩,
    .closeVisit ⟨0, []⟩,
    .endClose]

/-- After `acceptOne`, the program starts to read from the connection in a second call of
`zsocket_loop`. -/
def readOne (port : UInt16) : List Input :=
  acceptOne port ++
    [.loop 1000 (.ready {3} ∅),
      .visit (.calling []),
      .visit (.calling [.readStart 1 (some 5)]),
      .closeVisit ⟨0, []⟩,
      .closeVisit ⟨0, []⟩,
      .endClose]

end LibZio
