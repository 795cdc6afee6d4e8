import LibZio.Foundation.Iteration
import LibZio.Foundation.Slice
import LibZio.Foundation.Transfer
import LibZio.SocketCli.Basic

/-! # How a client writes

A translation of `__write_tcp`, which offers the rest of its buffer to `send` until all of it is
taken or a call takes nothing. What `send` does is a parameter, with a state of its own. Two
counters are kept, of the bytes written and of those left, and each call is offered what they
say. -/

namespace LibZio

/-- A connected socket as `send` shows it, with states in `σ`: the value returned for what is
offered. -/
structure Sender (σ : Type) where
  send : (offered : List UInt8) → σ → ℤ × σ

variable {σ : Type}

/-! ## The functions -/

/-- What a write leaves. -/
structure WriteResult (σ : Type) where
  /-- The value returned. -/
  ret : ℤ
  cli : SocketCli
  io : σ

/-- The variables of the loop in `__write_tcp`. -/
structure WriteLoop (σ : Type) where
  bytesLeft : ℤ
  writeBytes : ℤ
  io : σ

/-- One round of the loop in `__write_tcp`, where `errno` is what `__get_cur_err` reads. -/
def writeTcpRound (net : Sender σ) (errno : ℤ) (s : SocketCli) (buf : List UInt8)
    (l : WriteLoop σ) : Option (WriteLoop σ ⊕ Res (WriteResult σ)) :=
  if l.bytesLeft > 0 then
    match load buf l.writeBytes.toNat l.bytesLeft.toNat with
    | none => some (.inr (.error (.undefined .outOfBounds)))
    | some offered =>
        let (ret, io) := net.send offered l.io
        if ret ≤ 0 then some (.inr (.ok ⟨-1, { s with errCode := errno }, io⟩))
        else some (.inl ⟨l.bytesLeft - ret, l.writeBytes + ret, io⟩)
  else some (.inr (.ok ⟨l.writeBytes, s, l.io⟩))

/-- `__write_tcp`. The timeout is not read. -/
def writeTcp (net : Sender σ) (errno len _timeout : ℤ) (fuel : ℕ) (s : SocketCli) (buf : List UInt8)
    (io : σ) : Option (Res (WriteResult σ)) :=
  if !s.isConnect then some (.ok ⟨-1, s, io⟩)
  else iterate (writeTcpRound net errno s buf) fuel ⟨len, 0, io⟩

/-- `socket_write`. -/
def socketWrite (net : Sender σ) (errno len timeout : ℤ) (fuel : ℕ) (s : SocketCli)
    (buf : List UInt8) (io : σ) : Option (Res (WriteResult σ)) :=
  writeTcp net errno len timeout fuel s buf io

/-! ## A socket that keeps its calls -/

/-- `send` takes at most what it is offered. -/
def Sender.Bounded (net : Sender σ) : Prop :=
  ∀ offered io, (net.send offered io).1 ≤ offered.length

/-- `net`, with the calls of `send`, oldest first. -/
def Sender.recording (net : Sender σ) : Sender (σ × List (SendCall UInt8)) where
  send offered io :=
    ((net.send offered io.1).1, (net.send offered io.1).2,
      io.2 ++ [⟨offered, (net.send offered io.1).1⟩])

/-- A result without the calls. -/
def WriteResult.forget (r : WriteResult (σ × List (SendCall UInt8))) : WriteResult σ :=
  ⟨r.ret, r.cli, r.io.1⟩

/-- The variables of the loop without the calls. -/
def WriteLoop.forget (l : WriteLoop (σ × List (SendCall UInt8))) : WriteLoop σ :=
  ⟨l.bytesLeft, l.writeBytes, l.io.1⟩

variable {net : Sender σ} {errno timeout : ℤ} {len : ℕ} {s : SocketCli} {buf : List UInt8}

/-- Keeping the calls changes no round. -/
theorem writeTcpRound_recording (net : Sender σ) (errno : ℤ) (s : SocketCli) (buf : List UInt8)
    (l : WriteLoop (σ × List (SendCall UInt8))) :
    (writeTcpRound net.recording errno s buf l).map (Sum.map .forget (Except.map .forget))
      = writeTcpRound net errno s buf l.forget := by
  obtain ⟨bytesLeft, writeBytes, io, calls⟩ := l
  change _ = writeTcpRound net errno s buf ⟨bytesLeft, writeBytes, io⟩
  rw [writeTcpRound, writeTcpRound]
  dsimp only
  by_cases hleft : bytesLeft > 0
  · rw [if_pos hleft, if_pos hleft]
    cases load buf writeBytes.toNat bytesLeft.toNat with
    | none => rfl
    | some offered =>
        dsimp only
        by_cases hret : (net.send offered io).1 ≤ 0
        · rw [if_pos hret, if_pos (show (net.recording.send offered (io, calls)).1 ≤ 0 from hret)]
          rfl
        · rw [if_neg hret, if_neg (show ¬ (net.recording.send offered (io, calls)).1 ≤ 0 from hret)]
          rfl
  · rw [if_neg hleft, if_neg hleft]
    rfl

/-- Keeping the calls does not change `__write_tcp`. -/
theorem writeTcp_recording (net : Sender σ) (errno len timeout : ℤ) (fuel : ℕ) (s : SocketCli)
    (buf : List UInt8) (io : σ × List (SendCall UInt8)) :
    (writeTcp net.recording errno len timeout fuel s buf io).map (Except.map .forget)
      = writeTcp net errno len timeout fuel s buf io.1 := by
  rw [writeTcp, writeTcp]
  by_cases hon : (!s.isConnect) = true
  · rw [if_pos hon, if_pos hon]
    rfl
  · rw [if_neg hon, if_neg hon]
    exact iterate_map (writeTcpRound_recording net errno s buf) fuel _

/-! ## What the loop gives away -/

/-- The loop of a write of `len` bytes, between two rounds: the counters add up to `len`, and count
the bytes that were taken. -/
structure WriteLoop.Hands (l : WriteLoop (σ × List (SendCall UInt8))) (buf : List UInt8) (len : ℕ) :
    Prop where
  handed : Handed (buf.take len) l.io.2
  took : ∀ c ∈ l.io.2, 0 < c.ret
  written : l.writeBytes = (accepted l.io.2).length
  left : l.bytesLeft = len - (accepted l.io.2).length

/-- What a write owes its caller. -/
def WriteResult.Owes (r : WriteResult (σ × List (SendCall UInt8))) (buf : List UInt8) (len : ℕ) :
    Prop :=
  AllOrError (buf.take len) r.io.2 r.ret

/-- **A round of the loop**: all is taken, `send` fails, or it takes some of what is left. -/
theorem WriteLoop.Hands.round {l : WriteLoop (σ × List (SendCall UInt8))} (h : l.Hands buf len)
    (hnet : net.Bounded) (hbuf : len ≤ buf.length) :
    (∃ res, writeTcpRound net.recording errno s buf l = some (.inr res) ∧
      ∃ r, res = .ok r ∧ r.Owes buf len) ∨
    ∃ l', writeTcpRound net.recording errno s buf l = some (.inl l') ∧ l'.Hands buf len ∧
      l'.bytesLeft.toNat < l.bytesLeft.toNat := by
  obtain ⟨bytesLeft, writeBytes, io, calls⟩ := l
  obtain ⟨hhanded, htook, hwritten, hleft⟩ := h
  dsimp only at hhanded htook hwritten hleft
  subst hwritten hleft
  have hlen : (buf.take len).length = len := by rw [List.length_take, Nat.min_eq_left hbuf]
  have hle := hhanded.length_le
  rw [writeTcpRound]
  dsimp only
  by_cases hmore : (len : ℤ) - (accepted calls).length > 0
  · -- what the counters say is left is what was not taken
    have hload :
        load buf ((accepted calls).length : ℤ).toNat ((len : ℤ) - (accepted calls).length).toNat
          = some ((buf.take len).drop (accepted calls).length) := by
      rw [load_eq_some (by omega), slice, List.drop_take]
      congr 2
      omega
    obtain ⟨ret, io', hsend⟩ : ∃ ret io',
        net.recording.send ((buf.take len).drop (accepted calls).length) (io, calls) =
          (ret, io', calls ++ [⟨(buf.take len).drop (accepted calls).length, ret⟩]) :=
      ⟨_, _, rfl⟩
    have hoffer := hhanded.offer ret
    have hbounded := hnet ((buf.take len).drop (accepted calls).length) io
    rw [show (net.send ((buf.take len).drop (accepted calls).length) io).1 = ret from
      congrArg Prod.fst hsend, List.length_drop] at hbounded
    rw [if_pos hmore, hload]
    simp only [hsend]
    by_cases hret : ret ≤ 0
    · rw [if_pos hret]
      refine .inl ⟨_, rfl, _, rfl, hoffer.allOrError_failed ?_ ⟨_, List.mem_concat_self, hret⟩⟩
      rw [accepted_snoc, Int.toNat_of_nonpos hret, List.take_zero, List.append_nil]
      omega
    · rw [if_neg hret]
      have hcount :
          (accepted (calls ++ [⟨(buf.take len).drop (accepted calls).length, ret⟩])).length
            = (accepted calls).length + ret.toNat := by
        rw [accepted_snoc, List.length_append, List.length_take, List.length_drop]
        dsimp only
        omega
      refine .inr ⟨_, rfl, ⟨hoffer, fun c hc => ?_, ?_, ?_⟩, ?_⟩
      · rcases List.mem_append.mp hc with hc | hc
        · exact htook c hc
        · obtain rfl := List.mem_singleton.mp hc
          exact not_le.mp hret
      · dsimp only
        rw [hcount]
        omega
      · dsimp only
        rw [hcount]
        omega
      · dsimp only
        omega
  · rw [if_neg hmore]
    have hall : (accepted calls).length = (buf.take len).length := by omega
    refine .inl ⟨_, rfl, _, rfl, ?_⟩
    have hdone := hhanded.allOrError htook hall
    rw [← hall] at hdone
    exact hdone

/-- **All or an error.** A write to a connected client returns. What `send` took is the front of the
buffer, with no byte offered again that was taken before; the length is returned exactly when that
is the whole buffer, and `-1` exactly when some call took nothing. -/
theorem write_all_or_error (hnet : net.Bounded) (errno timeout : ℤ) (hs : s.isConnect = true)
    (hbuf : len ≤ buf.length) (io : σ) :
    ∃ fuel r calls, socketWrite net errno len timeout fuel s buf io = some (.ok r) ∧
      socketWrite net.recording errno len timeout fuel s buf (io, [])
        = some (.ok ⟨r.ret, r.cli, r.io, calls⟩) ∧
      (buf.take len).length = len ∧ AllOrError (buf.take len) calls r.ret := by
  have hstart : WriteLoop.Hands ⟨len, 0, io, []⟩ buf len :=
    ⟨Handed.start _, by simp, by simp, by simp⟩
  obtain ⟨res, ⟨fuel, hres⟩, r, rfl, howes⟩ := returns_of_measure
    (I := (WriteLoop.Hands · buf len)) (·.bytesLeft.toNat)
    (fun l hl => hl.round (s := s) hnet hbuf) hstart
  have hwrite : writeTcp net.recording errno len timeout fuel s buf (io, []) = some (.ok r) := by
    rw [writeTcp, if_neg (by rw [hs]; decide)]
    exact hres
  have hforget := writeTcp_recording net errno len timeout fuel s buf (io, [])
  rw [hwrite] at hforget
  exact ⟨fuel, r.forget, r.io.2, hforget.symm,
    hwrite, by rw [List.length_take, Nat.min_eq_left hbuf], howes⟩

/-- A client whose socket takes two bytes at a time writes three. -/
theorem write_all_or_error_partial :
    ∃ (net : Sender Unit) (s : SocketCli) (fuel : ℕ) (r : WriteResult Unit)
      (calls : List (SendCall UInt8)),
      s.isConnect = true ∧ socketWrite net 0 (3 : ℕ) 0 fuel s [5, 6, 7, 8] () = some (.ok r) ∧
      AllOrError [5, 6, 7] calls r.ret := by
  let net : Sender Unit := ⟨fun offered io => (min 2 offered.length, io)⟩
  let s : SocketCli := ⟨false, true, 0, 0, 3000, ⟨none, none, 3, ⟨7, 8000⟩⟩⟩
  have hnet : net.Bounded := fun offered io => min_le_right _ _
  obtain ⟨fuel, r, calls, hr, -, -, howes⟩ := write_all_or_error hnet 0 0
    (show s.isConnect = true from rfl) (show 3 ≤ [5, 6, 7, 8].length by decide) ()
  exact ⟨net, s, fuel, r, calls, rfl, hr, howes⟩

end LibZio
