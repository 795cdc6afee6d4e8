import LibZio.Serial.UnixReading
import LibZio.SocketCli.Reading

/-! # Reads that lose nothing

The two loops of the library that collect bytes, `unix_serial_read` and `__read_tcp_all`, leave
through many exits. Through each of them the caller gets all that was delivered, in order, at the
front of its buffer. A client is read here from a socket that keeps the calls of `recv` in its own
state, next to the states of any other. -/

namespace LibZio

variable {σ : Type} {net : SocketIo σ} {errno timeout : ℤ} {len : ℕ} {s : SocketCli} {buf : Buf}

/-! ## A socket that keeps its calls -/

/-- `net`, with the calls of `recv`, oldest first. -/
def SocketIo.recording (net : SocketIo σ) : SocketIo (σ × List (ReadCall UInt8)) where
  select tvSec tvUsec io :=
    ((net.select tvSec tvUsec io.1).1, (net.select tvSec tvUsec io.1).2, io.2)
  recv len io := (net.recv len io.1).map fun (got, io') => (got, io', io.2 ++ [⟨len, got⟩])

/-- `recv` gives at most what it is asked for. -/
def SocketIo.Bounded (net : SocketIo σ) : Prop :=
  ∀ len io got io', net.recv len io = some (some got, io') → got.length ≤ len

/-- A result without the calls. -/
def ReadResult.forget (r : ReadResult (σ × List (ReadCall UInt8))) : ReadResult σ :=
  ⟨r.ret, r.cli, r.buf, r.io.1⟩

/-- The variables of the loop without the calls. -/
def ReadLoop.forget (l : ReadLoop (σ × List (ReadCall UInt8))) : ReadLoop σ :=
  ⟨l.readLen, l.cli, l.buf, l.io.1⟩

/-- Waiting makes no call of `recv`. -/
theorem selectOut_recording (net : SocketIo σ) (errno timeout : ℤ) (s : SocketCli)
    (io : σ × List (ReadCall UInt8)) :
    selectOut net.recording errno timeout s io
      = ((selectOut net errno timeout s io.1).1, (selectOut net errno timeout s io.1).2.1,
          (selectOut net errno timeout s io.1).2.2, io.2) := by
  unfold selectOut
  by_cases ht : timeout = 0
  · rw [if_pos ht, if_pos ht]
  · rw [if_neg ht, if_neg ht]
    dsimp only [SocketIo.recording]
    by_cases hret : (net.select (timeout.tdiv 1000) (timeout.tmod 1000 * 1000) io.1).1 = 0
    · rw [if_pos hret, if_pos hret]
    · rw [if_neg hret, if_neg hret]

/-- Keeping the calls changes no round. -/
theorem readTcpRound_recording (net : SocketIo σ) (errno : ℤ) (len : ℕ) (timeout : ℤ)
    (l : ReadLoop (σ × List (ReadCall UInt8))) :
    (readTcpRound net.recording errno len timeout l).map (Sum.map .forget .forget)
      = readTcpRound net errno len timeout l.forget := by
  obtain ⟨readLen, cli, buf, io, calls⟩ := l
  change _ = readTcpRound net errno len timeout ⟨readLen, cli, buf, io⟩
  rw [readTcpRound, readTcpRound, selectOut_recording]
  dsimp only
  by_cases hlt : readLen < len
  · rw [if_pos hlt, if_pos hlt]
    by_cases hrc : (selectOut net errno timeout cli io).1 = -1
    · rw [if_pos hrc, if_pos hrc]
      rfl
    · rw [if_neg hrc, if_neg hrc]
      dsimp only [SocketIo.recording]
      rcases net.recv (len - readLen) (selectOut net errno timeout cli io).2.2 with
        _ | ⟨_ | bytes, io'⟩ <;> rfl
  · rw [if_neg hlt, if_neg hlt]
    rfl

/-- Keeping the calls does not change what is in front of the loop. -/
theorem readTcp_recording (net : SocketIo σ) (errno : ℤ) (len : ℕ) (timeout : ℤ) (s : SocketCli)
    (buf : Buf) (io : σ × List (ReadCall UInt8)) :
    (readTcp net.recording errno len timeout s buf io).map .forget
      = readTcp net errno len timeout s buf io.1 := by
  rw [readTcp, readTcp, selectOut_recording]
  dsimp only
  by_cases hon : (!s.isConnect) = true
  · rw [if_pos hon, if_pos hon]
    rfl
  · rw [if_neg hon, if_neg hon]
    by_cases hasync : s.async ≠ 0
    · rw [if_pos hasync, if_pos hasync]
      rfl
    · rw [if_neg hasync, if_neg hasync]
      by_cases hrc : (selectOut net errno timeout s io.1).1 = -1
      · rw [if_pos hrc, if_pos hrc]
        rfl
      · rw [if_neg hrc, if_neg hrc]
        dsimp only [SocketIo.recording]
        rcases net.recv len
          (selectOut net errno timeout s io.1).2.2 with _ | ⟨_ | bytes, io'⟩ <;> rfl

/-- Keeping the calls does not change `__read_tcp_all`. -/
theorem readTcpAll_recording (net : SocketIo σ) (errno : ℤ) (len : ℕ) (timeout : ℤ) (fuel : ℕ)
    (s : SocketCli) (buf : Buf) (io : σ × List (ReadCall UInt8)) :
    (readTcpAll net.recording errno len timeout fuel s buf io).map .forget
      = readTcpAll net errno len timeout fuel s buf io.1 := by
  rw [readTcpAll, readTcpAll, ← readTcp_recording]
  cases readTcp net.recording errno len timeout s buf io with
  | none => rfl
  | some r =>
      simp only [Option.bind_eq_bind, Option.bind_some, Option.map_some]
      by_cases hr : r.ret = -1
      · rw [if_pos hr, if_pos (show r.forget.ret = -1 from hr)]
        rfl
      · rw [if_neg hr, if_neg (show r.forget.ret ≠ -1 from hr)]
        exact iterate_map (readTcpRound_recording net errno len timeout) fuel _

/-! ## What a client gathers -/

/-- The cells of a buffer. -/
def Buf.cells (buf : Buf) : ℕ → Option UInt8 := fun j => some (buf j)

/-- Bytes stored behind those gathered. -/
theorem Gathered.write {old : ℕ → Option UInt8} {calls : List (ReadCall UInt8)} {readLen n : ℕ}
    {bytes : List UInt8} (h : Gathered len old calls buf.cells)
    (hlen : (delivered calls).length = readLen)
    (hn : readLen + n ≤ len) (hbytes : bytes.length ≤ n) :
    Gathered len old (calls ++ [⟨n, some bytes⟩]) (buf.write readLen bytes).cells := by
  subst hlen
  refine h.got hn hbytes (fun j hj => ?_) (fun j hj => ?_) fun j hj => ?_
  · rw [Buf.cells, Buf.write, if_neg (by omega), Buf.cells]
  · rw [Buf.cells, Buf.write, if_pos (by omega), Nat.add_sub_cancel_left,
      List.getD_eq_getElem _ _ hj, List.getElem?_eq_getElem hj]
  · rw [Buf.cells, Buf.write, if_pos (by omega), List.getD_eq_default _ _ (by omega), Buf.cells]

/-- The loop of a read into the buffer `old`, between two rounds. -/
structure ReadLoop.Gathers (l : ReadLoop (σ × List (ReadCall UInt8))) (len : ℕ) (old : Buf) :
    Prop where
  gathered : Gathered len old.cells l.io.2 l.buf.cells
  counted : (delivered l.io.2).length = l.readLen

/-- What a read into the buffer `old` owes its caller. -/
def ReadResult.Owes (r : ReadResult (σ × List (ReadCall UInt8))) (len : ℕ) (old : Buf) : Prop :=
  Lossless len r.io.2 r.ret old.cells r.buf.cells

/-- **A round of the loop** stores what it is given behind what it has, or ends with all of it. -/
theorem ReadLoop.Gathers.round {old : Buf} {l : ReadLoop (σ × List (ReadCall UInt8))}
    (h : l.Gathers len old) (hnet : net.Bounded)
    {next : ReadLoop (σ × List (ReadCall UInt8)) ⊕ ReadResult (σ × List (ReadCall UInt8))}
    (hround : readTcpRound net.recording errno len timeout l = some next) :
    next.elim (·.Gathers len old) (·.Owes len old) := by
  obtain ⟨hgathered, hcounted⟩ := h
  obtain ⟨readLen, cli, buf, io, calls⟩ := l
  dsimp only at hgathered hcounted
  have hdone : Lossless len calls readLen old.cells buf.cells := hcounted ▸ hgathered.lossless
  rw [readTcpRound, selectOut_recording] at hround
  dsimp only at hround
  by_cases hlt : readLen < len
  · rw [if_pos hlt] at hround
    by_cases hrc : (selectOut net errno timeout cli io).1 = -1
    · rw [if_pos hrc] at hround
      cases hround
      exact hdone
    · rw [if_neg hrc] at hround
      dsimp only [SocketIo.recording] at hround
      have hroom : (delivered calls).length + (len - readLen) ≤ len := by omega
      cases hrecv : net.recv (len - readLen) (selectOut net errno timeout cli io).2.2 with
      | none => rw [hrecv] at hround; cases hround
      | some result =>
          obtain ⟨_ | bytes, io'⟩ := result
          · rw [hrecv] at hround
            cases hround
            have hnothing := (hgathered.nothing hroom
              (show (none : Option (List UInt8)).getD [] = [] from rfl)).lossless
            rw [delivered_append, delivered_singleton, Option.getD_none, List.append_nil, hcounted]
              at hnothing
            exact hnothing
          · rw [hrecv] at hround
            cases hround
            refine ⟨hgathered.write hcounted (by omega) (hnet _ _ _ _ hrecv), ?_⟩
            rw [delivered_append, delivered_singleton, List.length_append, hcounted]
            rfl
  · rw [if_neg hlt] at hround
    cases hround
    exact hdone

/-- **The statements in front of the loop** fail without a byte, or leave the loop with the first
bytes. -/
theorem readTcp_gathers (hnet : net.Bounded) {io : σ} {r : ReadResult (σ × List (ReadCall UInt8))}
    (hr : readTcp net.recording errno len timeout s buf (io, []) = some r) :
    r.ret = -1 ∧ r.Owes len buf ∨
      r.ret ≠ -1 ∧ ReadLoop.Gathers ⟨r.ret.toNat, r.cli, r.buf, r.io⟩ len buf := by
  have hstart := Gathered.start len buf.cells
  have hfailed : Lossless len [] (-1) buf.cells buf.cells := hstart.lossless_failed rfl
  rw [readTcp, selectOut_recording] at hr
  dsimp only at hr
  by_cases hon : (!s.isConnect) = true
  · rw [if_pos hon] at hr
    cases hr
    exact .inl ⟨rfl, hfailed⟩
  · rw [if_neg hon] at hr
    by_cases hasync : s.async ≠ 0
    · rw [if_pos hasync] at hr
      cases hr
      exact .inl ⟨rfl, hfailed⟩
    · rw [if_neg hasync] at hr
      by_cases hrc : (selectOut net errno timeout s io).1 = -1
      · rw [if_pos hrc] at hr
        cases hr
        exact .inl ⟨rfl, hfailed⟩
      · rw [if_neg hrc] at hr
        dsimp only [SocketIo.recording] at hr
        cases hrecv : net.recv len (selectOut net errno timeout s io).2.2 with
        | none => rw [hrecv] at hr; cases hr
        | some result =>
            obtain ⟨_ | bytes, io'⟩ := result
            · rw [hrecv] at hr
              cases hr
              have hnothing := hstart.nothing (n := len) (by simp)
                (show (none : Option (List UInt8)).getD [] = [] from rfl)
              exact .inl ⟨rfl, hnothing.lossless_failed rfl⟩
            · rw [hrecv] at hr
              cases hr
              refine .inr ⟨show (bytes.length : ℤ) ≠ -1 by omega, ?_, ?_⟩
              · exact hstart.write rfl (by simp) (hnet _ _ _ _ hrecv)
              · simp

/-- **`__read_tcp_all` loses nothing.** -/
theorem readTcpAll_lossless (hnet : net.Bounded) {fuel : ℕ} {io : σ} {r : ReadResult σ}
    (hr : readTcpAll net errno len timeout fuel s buf io = some r) :
    ∃ calls, readTcpAll net.recording errno len timeout fuel s buf (io, [])
        = some ⟨r.ret, r.cli, r.buf, r.io, calls⟩ ∧
      Lossless len calls r.ret buf.cells r.buf.cells := by
  rw [← readTcpAll_recording net errno len timeout fuel s buf (io, [])] at hr
  obtain ⟨r', hr', rfl⟩ := Option.map_eq_some_iff.mp hr
  refine ⟨r'.io.2, hr', ?_⟩
  rw [readTcpAll] at hr'
  obtain ⟨first, hfirst, hrest⟩ := Option.bind_eq_some_iff.mp hr'
  obtain ⟨hret, howes⟩ | ⟨hret, hgathers⟩ := readTcp_gathers hnet hfirst
  · rw [if_pos hret] at hrest
    cases hrest
    exact howes
  · rw [if_neg hret] at hrest
    refine iterate_post (fun l => l.Gathers len buf) (fun r => r.Owes len buf)
      (fun l l' hl hnext => ?_) (fun l r hl hnext => ?_) hgathers hrest
    · have hround := hl.round hnet hnext
      exact hround
    · have hround := hl.round hnet hnext
      exact hround

/-! ## Both loops -/

/-- **The read loops lose nothing.** `unix_serial_read` returns once it has had an answer for each
byte it may take, and calls `read` no more often. Where it returns, and where `__read_tcp_all` does,
a count is that of the bytes the calls delivered, which lie in order at the front of the buffer; a
failure took no byte; and nothing is stored behind the first `len` bytes. -/
theorem reads_lossless (len : ℕ) :
    (∀ (mtimeout errno : ℤ) (answers : List UnixReadAnswer) (ctx : Serial UnixDev)
      (buf : List UInt8), len ≤ buf.length → ∀ calls res,
      unixSerialReadCalls len mtimeout answers errno ctx buf = (calls, res) →
        (∀ c ∈ calls, c.Fits) → unixSerialRead len mtimeout answers errno ctx buf = res ∧
        calls.length ≤ max len 1 ∧ (max len 1 ≤ answers.length → ∃ r, res = .ok r) ∧
        res ≠ .error .outOfBounds ∧
        ∀ ret ctx' buf', res = .ok (ret, ctx', buf') →
          Lossless len calls ret (buf[·]?) (buf'[·]?)) ∧
    (∀ {σ : Type} (net : SocketIo σ), net.Bounded →
      ∀ (errno timeout : ℤ) (fuel : ℕ) (s : SocketCli) (buf : Buf) (io : σ) (r : ReadResult σ),
      socketReadAll net errno len timeout fuel s buf io = some r →
        ∃ calls, socketReadAll net.recording errno len timeout fuel s buf (io, [])
            = some ⟨r.ret, r.cli, r.buf, r.io, calls⟩ ∧
          Lossless len calls r.ret buf.cells r.buf.cells) := by
  refine ⟨fun mtimeout errno answers ctx buf hbuf calls res hrun hfit => ?_,
    fun net hnet errno timeout fuel s buf io r hr => readTcpAll_lossless hnet hr⟩
  obtain rfl : (unixSerialReadCalls len mtimeout answers errno ctx buf).1 = calls := by rw [hrun]
  have hres := unixSerialReadCalls_snd len mtimeout answers errno ctx buf
  obtain rfl : unixSerialRead len mtimeout answers errno ctx buf = res := by rw [← hres, hrun]
  refine ⟨rfl, unixSerialRead_few len mtimeout answers errno ctx buf, fun hmany => ?_,
    unixSerialRead_inBounds mtimeout answers errno ctx hbuf,
      fun _ _ _ => unixSerialRead_lossless hbuf⟩
  exact unixSerialRead_total hbuf (by omega) hfit

/-- A line and a client that give two bytes of three, and then time out. -/
theorem reads_lossless_short :
    (∃ ctx ctx' : Serial UnixDev,
      unixSerialRead (3 : ℕ) 100 [⟨1, some [1, 2]⟩, ⟨0, none⟩] 0 ctx [0, 0, 0]
        = .ok (2, ctx', [1, 2, 0]) ∧
      Lossless 3 [⟨3, some [1, 2]⟩] 2 (([0, 0, 0] : List UInt8)[·]?) ([1, 2, 0][·]?)) ∧
    ∃ (net : SocketIo ℕ) (s : SocketCli) (r : ReadResult ℕ) (calls : List (ReadCall UInt8)),
      socketReadAll net 0 3 100 3 s (fun _ => 0) 0 = some r ∧ r.ret = 2 ∧
      Lossless 3 calls 2 (Buf.cells fun _ => 0) r.buf.cells := by
  constructor
  · let ctx : Serial UnixDev := ⟨false, true, 0, 0, ⟨"", 0, 0, 0, 0, ⟨{}, 3⟩⟩⟩
    obtain ⟨-, -, -, -, hlossless⟩ := (reads_lossless 3).1 100 0 [⟨1, some [1, 2]⟩, ⟨0, none⟩] ctx
      [0, 0, 0] (by decide) [⟨3, some [1, 2]⟩]
      (.ok (2, ctx, [1, 2, 0])) rfl fun c hc bytes hbytes => by
        obtain rfl : c = ⟨3, some [1, 2]⟩ := List.mem_singleton.mp hc
        cases hbytes
        decide
    exact ⟨ctx, ctx, rfl, hlossless _ _ _ rfl⟩
  · let net : SocketIo ℕ :=
      { select := fun _ _ k => (if k = 0 then 1 else 0, k + 1)
        recv := fun n k => some (some ([1, 2].take n), k) }
    have hnet : net.Bounded := by
      intro n k got k' h
      obtain ⟨rfl, -⟩ := Prod.mk.inj (Option.some.inj h) |>.imp Option.some.inj id
      exact List.length_take_le _ _
    obtain ⟨calls, -, hlossless⟩ :=
      (reads_lossless 3).2 net hnet 0 100 3 (connectedCli 0) (fun _ => 0) 0
      _ rfl
    exact ⟨net, connectedCli 0, _, calls, rfl, rfl, hlossless⟩

end LibZio
