import LibZio.Zsocket.Closing

/-! # What moves leave alone

A move changes the memory of one socket, the list only when a socket is opened or unlinked, and the
mode only when it says so. A listed socket stays listed, with its descriptor, its type and its
address, until it is unlinked, and once it is EOF it stays EOF. -/

namespace LibZio

/-- The socket a move concerns. -/
def Act.socket : Act → Option Sid
  | .log | .mode => none
  | .init s | .open s | .watch s | .unwatch s | .watchWrite s | .touch s | .receive s
  | .recvFail s | .close s | .abandon s | .recount s | .unlink s | .release s | .free s => some s

/-- The list after a move. -/
def Act.socks (l : List Sid) : Act → List Sid
  | .open s => s :: l
  | .unlink s => l.erase s
  | _ => l

/-- Whether a move may rewrite the read buffer of the listed socket `s`. -/
def Act.rewritesRbuf (s : Sid) (a : Act) : Prop :=
  a = .receive s ∨ a = .recvFail s ∨ a = .abandon s ∨ a = .recount s

/-- A test of the fields of a socket, passed where there is no live socket. -/
def World.check (w : World) (s : Sid) (p : ZSocket → Bool) : Bool :=
  match w.mem s with
  | .live z => p z
  | _ => true

/-- A passed test says what it tests of a live socket. -/
theorem World.of_check {w : World} {s : Sid} {p : ZSocket → Bool} {z : ZSocket}
    (h : w.check s p = true) (hz : w.mem s = .live z) : p z = true := by
  rw [World.check, hz] at h
  exact h

/-- A test of the fields of a live socket. -/
def World.has (w : World) (s : Sid) (p : ZSocket → Bool) : Bool :=
  match w.mem s with
  | .live z => p z
  | _ => false

theorem World.has_live {w : World} {s : Sid} {z : ZSocket} {p : ZSocket → Bool}
    (hz : w.mem s = .live z) : w.has s p = p z := by
  rw [World.has, hz]

/-- A passed test is of a live socket. -/
theorem World.has_eq_true {w : World} {s : Sid} {p : ZSocket → Bool} :
    w.has s p = true ↔ ∃ z, w.mem s = .live z ∧ p z = true := by
  unfold World.has
  cases w.mem s with
  | live z => simp
  | unused | freed => simp

/-- `z'` is the same listed socket as `z`, later. -/
structure ZSocket.Stays (z z' : ZSocket) : Prop where
  node : z'.node = .linked
  fd : z'.fd = z.fd
  laddr : z'.laddr = z.laddr
  type : z'.type = z.type
  eof : z.eof = true → z'.eof = true

/-- The socket `s` has been closed: it is EOF, or it is gone. -/
def World.Over (w : World) (s : Sid) : Prop :=
  w.mem s = .freed ∨ ∃ z, w.mem s = .live z ∧ z.eof = true

/-- A listed socket stays itself. -/
theorem ZSocket.Stays.refl {z : ZSocket} (h : z.node = .linked) : z.Stays z :=
  ⟨h, rfl, rfl, rfl, id⟩

theorem ZSocket.Stays.trans {x y z : ZSocket} (h : x.Stays y) (h' : y.Stays z) : x.Stays z :=
  ⟨h'.node, h'.fd.trans h.fd, h'.laddr.trans h.laddr, h'.type.trans h.type,
    fun he => h'.eof (h.eof he)⟩

namespace Move

variable {a : Act} {w w' : World} {s t : Sid} {z z' : ZSocket}

/-- A move leaves the memory of every other socket alone. -/
theorem mem_of_ne (m : Move a w w') (h : a.socket ≠ some t) : w'.mem t = w.mem t := by
  cases m <;> simp only [Act.socket, ne_eq, Option.some.injEq] at h
  case log => rfl
  case mode => rfl
  case init hu =>
      rw [World.put_mem_of_ne _ (Ne.symm h)]
      cases w.libInit <;> rfl
  case «free» => exact Function.update_of_ne (Ne.symm h) _ _
  case abandon =>
      exact (World.put_mem_of_ne _ (Ne.symm h) _).trans (World.put_mem_of_ne _ (Ne.symm h) _)
  case recount =>
      exact (World.put_mem_of_ne _ (Ne.symm h) _).trans (World.put_mem_of_ne _ (Ne.symm h) _)
  all_goals exact World.put_mem_of_ne _ (Ne.symm h) _

/-- Only a change of mode changes the mode. -/
theorem inLooping_eq (m : Move a w w') (h : a ≠ .mode) : w'.inLooping = w.inLooping := by
  cases m <;> try rfl
  case mode => exact absurd rfl h
  case init => rw [World.put_inLooping]; cases w.libInit <;> rfl

/-- What a move does to the list. -/
theorem socks_eq (m : Move a w w') : w'.socks = a.socks w.socks := by
  cases m <;> try rfl
  case init => rw [World.put_socks]; cases w.libInit <;> rfl

/-- **A listed socket stays listed** until it is unlinked, and is EOF afterwards only if it was EOF
before or the move closes it. -/
theorem stays (m : Move a w w') (hz : w.mem s = .live z) (hn : z.node = .linked)
    (h : a ≠ .unlink s) :
    ∃ z', w'.mem s = .live z' ∧ z.Stays z' ∧
      (z.eof = false → a ≠ .close s → a ≠ .abandon s → z'.eof = false) := by
  by_cases hs : a.socket = some s
  · cases m with
    | log | mode => cases hs
    | @init _ t hu =>
        obtain rfl : t = s := Option.some.inj hs
        rw [hz] at hu; cases hu
    | @«open» _ t y z' fd source live node fresh opened accepted =>
        obtain rfl : t = s := Option.some.inj hs
        obtain rfl : z = y := Slot.live.inj (hz.symm.trans live)
        rw [hn] at node; cases node
    | @watch _ t y cb live node eof off fd hcb =>
        obtain rfl : t = s := Option.some.inj hs
        obtain rfl : z = y := Slot.live.inj (hz.symm.trans live)
        have heof : ({ z with state := z.state ||| ZS_S_READ_ENABLE, readCb := cb } : ZSocket).eof =
            z.eof := hasFlag_or_of_disjoint _ (by decide)
        exact ⟨_, World.put_mem_self _ _ _, ⟨hn, rfl, rfl, rfl, fun he => heof.trans he⟩,
          fun he _ _ => heof.trans he⟩
    | @unwatch _ t y live node eof on fd =>
        obtain rfl : t = s := Option.some.inj hs
        obtain rfl : z = y := Slot.live.inj (hz.symm.trans live)
        have heof : ({ z with state := z.state &&& ~~~ZS_S_READ_ENABLE, readCb := none } :
            ZSocket).eof = z.eof := hasFlag_andNot_of_disjoint _ (by decide)
        exact ⟨_, World.put_mem_self _ _ _, ⟨hn, rfl, rfl, rfl, fun he => heof.trans he⟩,
          fun he _ _ => heof.trans he⟩
    | @watchWrite _ t y q live node eof off fd =>
        obtain rfl : t = s := Option.some.inj hs
        obtain rfl : z = y := Slot.live.inj (hz.symm.trans live)
        have heof : ({ z with state := z.state ||| ZS_S_WRITE_ENABLE, wbuf := some q } :
            ZSocket).eof = z.eof := hasFlag_or_of_disjoint _ (by decide)
        exact ⟨_, World.put_mem_self _ _ _, ⟨hn, rfl, rfl, rfl, fun he => heof.trans he⟩,
          fun he _ _ => heof.trans he⟩
    | @touch _ t y z' live same rbuf =>
        obtain rfl : t = s := Option.some.inj hs
        obtain rfl : z = y := Slot.live.inj (hz.symm.trans live)
        have heof : z'.eof = z.eof := by rw [ZSocket.eof, same.state]
        exact ⟨z', World.put_mem_self _ _ _,
          ⟨same.node.trans hn, same.fd, same.laddr, same.type, fun he => heof.trans he⟩,
          fun he _ _ => heof.trans he⟩
    | @receive _ t y z' live same =>
        obtain rfl : t = s := Option.some.inj hs
        obtain rfl : z = y := Slot.live.inj (hz.symm.trans live)
        have heof : z'.eof = z.eof := by rw [ZSocket.eof, same.state]
        exact ⟨z', World.put_mem_self _ _ _,
          ⟨same.node.trans hn, same.fd, same.laddr, same.type, fun he => heof.trans he⟩,
          fun he _ _ => heof.trans he⟩
    | @recvFail _ t y z' live node eof same =>
        obtain rfl : t = s := Option.some.inj hs
        obtain rfl : z = y := Slot.live.inj (hz.symm.trans live)
        have heof : z'.eof = false := by
          rw [ZSocket.eof, same.state]; exact hasFlag_and_of_disjoint _ (by decide)
        refine ⟨z', World.put_mem_self _ _ _,
          ⟨same.node.trans hn, same.fd, same.laddr, same.type, ?_⟩, fun _ _ _ => heof⟩
        intro he; rw [eof] at he; cases he
    | @close _ t y cb live node eof fd =>
        obtain rfl : t = s := Option.some.inj hs
        obtain rfl : z = y := Slot.live.inj (hz.symm.trans live)
        exact ⟨_, World.put_mem_self _ _ _,
          ⟨hn, rfl, rfl, rfl, fun _ => hasFlag_or_self _ (by decide)⟩, fun _ hc => absurd rfl hc⟩
    | @abandon _ t y z' mask live node eof fd hmask same =>
        obtain rfl : t = s := Option.some.inj hs
        obtain rfl : z = y := Slot.live.inj (hz.symm.trans live)
        exact ⟨_, World.put_mem_self _ _ _, ⟨same.node.trans hn, same.fd, same.laddr, same.type,
          fun _ => hasFlag_or_self _ (by decide)⟩, fun _ _ hc => absurd rfl hc⟩
    | @recount _ t y z' mask live node eof fd hmask same =>
        obtain rfl : t = s := Option.some.inj hs
        obtain rfl : z = y := Slot.live.inj (hz.symm.trans live)
        refine ⟨_, World.put_mem_self _ _ _, ⟨same.node.trans hn, same.fd, same.laddr, same.type,
          fun _ => hasFlag_or_self _ (by decide)⟩, fun he => ?_⟩
        rw [eof] at he; cases he
    | @unlink _ t y live node eof =>
        obtain rfl : t = s := Option.some.inj hs
        exact absurd rfl h
    | @release _ t y live node =>
        obtain rfl : t = s := Option.some.inj hs
        obtain rfl : z = y := Slot.live.inj (hz.symm.trans live)
        rw [hn] at node; cases node
    | @free _ t y live node =>
        obtain rfl : t = s := Option.some.inj hs
        obtain rfl : z = y := Slot.live.inj (hz.symm.trans live)
        rw [hn] at node; cases node
  · exact ⟨z, (m.mem_of_ne hs).trans hz, .refl hn, fun he _ _ => he⟩

/-- **A listed socket keeps its read buffer** in every move but those of `zsocket_handle_recv` and
those that rewrite its state word. -/
theorem rbuf_eq (m : Move a w w') (hz : w.mem s = .live z) (hn : z.node = .linked)
    (hz' : w'.mem s = .live z') (h : ¬ a.rewritesRbuf s) : z'.rbuf = z.rbuf := by
  by_cases hs : a.socket = some s
  · cases m with
    | log | mode => cases hs
    | @init _ t hu =>
        obtain rfl : t = s := Option.some.inj hs
        rw [hz] at hu; cases hu
    | @«open» _ t y y' fd source live node fresh opened accepted =>
        obtain rfl : t = s := Option.some.inj hs
        obtain rfl : z = y := Slot.live.inj (hz.symm.trans live)
        rw [hn] at node; cases node
    | @touch _ t y y' live same rbuf =>
        obtain rfl : t = s := Option.some.inj hs
        obtain rfl : z = y := Slot.live.inj (hz.symm.trans live)
        obtain rfl : y' = z' := Slot.live.inj ((World.put_mem_self _ _ _).symm.trans hz')
        exact rbuf
    | @release _ t y live node =>
        obtain rfl : t = s := Option.some.inj hs
        obtain rfl : z = y := Slot.live.inj (hz.symm.trans live)
        rw [hn] at node; cases node
    | @«free» _ t y live node =>
        obtain rfl : t = s := Option.some.inj hs
        obtain rfl : z = y := Slot.live.inj (hz.symm.trans live)
        rw [hn] at node; cases node
    | @watch _ t y cb live | @unwatch _ t y live | @watchWrite _ t y q live | @close _ t y cb live
    | @unlink _ t y live =>
        obtain rfl : t = s := Option.some.inj hs
        obtain rfl : z = y := Slot.live.inj (hz.symm.trans live)
        have heq := Slot.live.inj ((World.put_mem_self _ _ _).symm.trans hz')
        subst heq
        rfl
    | @receive _ t | @recvFail _ t | @abandon _ t | @recount _ t =>
        obtain rfl : t = s := Option.some.inj hs
        exact absurd (by simp [Act.rewritesRbuf]) h
  · obtain rfl := Slot.live.inj (((m.mem_of_ne hs).trans hz).symm.trans hz')
    rfl

/-- **A closed socket stays closed**, whatever happens to it. -/
theorem still_over (m : Move a w w') (h : w.Over s) : w'.Over s := by
  by_cases hs : a.socket = some s
  · obtain hfreed | ⟨z, hz, he⟩ := h
    · cases m <;> simp only [Act.socket, Option.some.injEq, reduceCtorEq] at hs <;> subst hs <;>
        simp_all
    · cases m with
      | log | mode => cases hs
      | @init _ t hu =>
          obtain rfl : t = s := Option.some.inj hs
          rw [hz] at hu; cases hu
      | @«open» _ t y y' fd source live node fresh opened accepted =>
          obtain rfl : t = s := Option.some.inj hs
          obtain rfl : z = y := Slot.live.inj (hz.symm.trans live)
          exact .inr ⟨y', World.put_mem_self _ _ _, by rw [ZSocket.eof, opened.state]; exact he⟩
      | @watch _ t y cb live node eof | @unwatch _ t y live node eof
      | @watchWrite _ t y q live node eof
      | @recvFail _ t y y' live node eof | @close _ t y cb live node eof
      | @abandon _ t y y' mask live node eof =>
          obtain rfl : t = s := Option.some.inj hs
          obtain rfl : z = y := Slot.live.inj (hz.symm.trans live)
          rw [he] at eof; cases eof
      | @touch _ t y y' live same | @receive _ t y y' live same =>
          obtain rfl : t = s := Option.some.inj hs
          obtain rfl : z = y := Slot.live.inj (hz.symm.trans live)
          exact .inr ⟨y', World.put_mem_self _ _ _, by rw [ZSocket.eof, same.state]; exact he⟩
      | @recount _ t y y' =>
          obtain rfl : t = s := Option.some.inj hs
          exact .inr ⟨_, World.put_mem_self _ _ _, ZSocket.closed_eof _ _⟩
      | @unlink _ t y live | @release _ t y live =>
          obtain rfl : t = s := Option.some.inj hs
          obtain rfl : z = y := Slot.live.inj (hz.symm.trans live)
          exact .inr ⟨_, World.put_mem_self _ _ _, he⟩
      | @«free» _ t =>
          obtain rfl : t = s := Option.some.inj hs
          exact .inl (Function.update_self ..)
  · rw [World.Over, m.mem_of_ne hs]
    exact h

end Move

namespace Moves

variable {P Q : Act → Prop} {w w' w'' : World} {s : Sid} {z : ZSocket}

/-- One move. -/
theorem one {a : Act} (h : P a) (m : Move a w w') : Moves P w w' := .single ⟨a, h, m⟩

/-- No move. -/
theorem none : Moves P w w := .refl

/-- One sequence after another. -/
theorem append (m : Moves P w w') (m' : Moves P w' w'') : Moves P w w'' := m.trans m'

/-- Allowing more kinds of moves. -/
theorem mono (h : ∀ a, P a → Q a) (m : Moves P w w') : Moves Q w w' :=
  Relation.ReflTransGen.mono (fun _ _ ⟨a, ha, hm⟩ => ⟨a, h a ha, hm⟩) _ _ m

/-- **What every move preserves, a sequence preserves**, in well-formed worlds. -/
theorem preserve {I : World → Prop} (m : Moves P w w') (hw : w.WF) (h : I w)
    (step : ∀ a v v', P a → Move a v v' → v.WF → I v → I v') : I w' := by
  have both : w'.WF ∧ I w' := by
    induction m with
    | refl => exact ⟨hw, h⟩
    | tail _ hm ih =>
        obtain ⟨a, ha, hm⟩ := hm
        exact ⟨hm.wf ih.1, step a _ _ ha hm ih.1 ih.2⟩
  exact both.2

/-- A sequence without a change of mode keeps the mode. -/
theorem inLooping_eq (m : Moves P w w') (h : ¬ P .mode) : w'.inLooping = w.inLooping := by
  induction m with
  | refl => rfl
  | tail _ hm ih =>
      obtain ⟨a, ha, hm⟩ := hm
      exact (hm.inLooping_eq fun hc => h (hc ▸ ha)).trans ih

/-- A listed socket stays listed in a sequence that does not unlink it, and open in one that does
not close it. -/
theorem stays (m : Moves P w w') (hz : w.mem s = .live z) (hn : z.node = .linked)
    (h : ¬ P (.unlink s)) :
    ∃ z', w'.mem s = .live z' ∧ z.Stays z' ∧
      (z.eof = false → ¬ P (.close s) → ¬ P (.abandon s) → z'.eof = false) := by
  induction m with
  | refl => exact ⟨z, hz, .refl hn, fun he _ _ => he⟩
  | tail _ hm ih =>
      obtain ⟨a, ha, hm⟩ := hm
      obtain ⟨y, hy, hys, hye⟩ := ih
      obtain ⟨z', hz', hzs, hze⟩ := hm.stays hy hys.node fun hc => h (hc ▸ ha)
      exact ⟨z', hz', hys.trans hzs, fun he hc hb =>
        hze (hye he hc hb) (fun e => hc (e ▸ ha)) fun e => hb (e ▸ ha)⟩

/-- A listed socket keeps its read buffer in a sequence that neither unlinks it nor rewrites the
buffer. -/
theorem rbuf_eq (m : Moves P w w') (hz : w.mem s = .live z) (hn : z.node = .linked)
    (h : ¬ P (.unlink s)) (hr : ∀ a, P a → ¬ a.rewritesRbuf s) {z' : ZSocket}
    (hz' : w'.mem s = .live z') : z'.rbuf = z.rbuf := by
  induction m generalizing z' with
  | refl => obtain rfl := Slot.live.inj (hz.symm.trans hz'); rfl
  | tail mid hm ih =>
      obtain ⟨a, ha, hm⟩ := hm
      obtain ⟨y, hy, hys, -⟩ := Moves.stays mid hz hn h
      exact (hm.rbuf_eq hy hys.node hz' (hr a ha)).trans (ih hy)

/-- A closed socket stays closed. -/
theorem still_over (m : Moves P w w') (h : w.Over s) : w'.Over s := by
  induction m with
  | refl => exact h
  | tail _ hm ih =>
      obtain ⟨a, -, hm⟩ := hm
      exact hm.still_over ih

/-- A sequence that does not concern a socket leaves its memory alone. -/
theorem mem_of_not (m : Moves P w w') (h : ∀ a, P a → a.socket ≠ some s) : w'.mem s = w.mem s := by
  induction m with
  | refl => rfl
  | tail _ hm ih =>
      obtain ⟨a, ha, hm⟩ := hm
      exact (hm.mem_of_ne (h a ha)).trans ih

end Moves

end LibZio
