import LibZio.Foundation.Transfer
import LibZio.Serial.Unix

/-! # The read loop of the Unix backend

`unix_serial_read` collects bytes until it has `len` of them, a timeout runs out, or `read` gives
nothing. `unixSerialReadCalls` is the function with the calls of `read` it makes kept beside its
result. Each call is given no more room than is left, each but the last delivers a byte or more, and
what is delivered lies at the front of the caller's buffer. -/

namespace LibZio

/-- `unixReadLoop`, with the calls of `read`. -/
def unixReadLoopCalls (len mtimeout : ℤ) :
    List UnixReadAnswer → ℕ → List UInt8 → List (ReadCall UInt8) × SerialRes (Bool × ℕ × List UInt8)
  | [], readLen, buf =>
      ([], if (readLen : ℤ) < len then .error .environment else .ok (false, readLen, buf))
  | answer :: answers, readLen, buf =>
      if (readLen : ℤ) < len then
        if 0 ≤ mtimeout ∧ unixSerialSetTimeout mtimeout answer.select = -1 then
          ([], .ok (false, readLen, buf))
        else
          let call : ReadCall UInt8 := ⟨(min (len - readLen) 1024).toNat, answer.read⟩
          match answer.read with
          | none => ([call], .ok (true, readLen, buf))
          | some temp =>
              if (temp.length : ℤ) ≤ min (len - readLen) 1024 then
                if temp.length = 0 then ([call], .ok (true, readLen, buf))
                else
                  match store buf readLen temp with
                  | none => ([call], .error .outOfBounds)
                  | some buf =>
                      let (calls, res) :=
                        unixReadLoopCalls len mtimeout answers (readLen + temp.length) buf
                      (call :: calls, res)
              else ([call], .error .environment)
      else ([], .ok (false, readLen, buf))

/-- `unixSerialRead`, with the calls of `read`. -/
def unixSerialReadCalls (len mtimeout : ℤ) (answers : List UnixReadAnswer) (errno : ℤ)
    (ctx : Serial UnixDev) (buf : List UInt8) :
    List (ReadCall UInt8) × SerialRes (ℤ × Serial UnixDev × List UInt8) :=
  if !ctx.isOpen then ([], .ok (-1, ctx, buf))
  else if ctx.s = -1 then ([], .ok (-1, ctx, buf))
  else
    let (calls, res) := unixReadLoopCalls len mtimeout answers 0 buf
    (calls, do
      let (returned, readLen, buf) ← res
      if returned then return (readLen, ctx, buf)
      if readLen ≤ 0 then return (-1, { ctx with errCode := errno }, buf)
      return (readLen, ctx, buf))

variable {len : ℕ} {mtimeout errno : ℤ} {answers : List UnixReadAnswer} {ctx : Serial UnixDev}
  {readLen : ℕ} {buf buf' : List UInt8}

/-- Keeping the calls does not change the loop. -/
theorem unixReadLoopCalls_snd (len mtimeout : ℤ) (answers : List UnixReadAnswer) (readLen : ℕ)
    (buf : List UInt8) : (unixReadLoopCalls len mtimeout answers readLen buf).2
      = unixReadLoop len mtimeout answers readLen buf := by
  fun_induction unixReadLoopCalls len mtimeout answers readLen buf with
  | case1 readLen buf => rfl
  | case2 answer answers readLen buf hlt htimeout => rw [unixReadLoop, if_pos hlt, if_pos htimeout]
  | case3 answer answers readLen buf hlt htimeout call hread =>
      rw [unixReadLoop, if_pos hlt, if_neg htimeout, hread]
  | case4 answer answers readLen buf hlt htimeout call temp hread hfit hnone =>
      rw [unixReadLoop, if_pos hlt, if_neg htimeout, hread]
      simp only [decide_eq_true hfit, ensure_true, ok_bind, if_pos hnone]
      rfl
  | case5 answer answers readLen buf hlt htimeout call temp hread hfit hsome hstore =>
      rw [unixReadLoop, if_pos hlt, if_neg htimeout, hread]
      simp only [decide_eq_true hfit, ensure_true, ok_bind, if_neg hsome, hstore]
      rfl
  | case6 answer answers readLen buf hlt htimeout call temp hread hfit hsome buf' hstore calls res
      hrest ih =>
      rw [unixReadLoop, if_pos hlt, if_neg htimeout, hread]
      simp only [decide_eq_true hfit, ensure_true, ok_bind, if_neg hsome, hstore]
      rw [hrest] at ih
      exact ih
  | case7 answer answers readLen buf hlt htimeout call temp hread hfit =>
      rw [unixReadLoop, if_pos hlt, if_neg htimeout, hread]
      simp only [decide_eq_false hfit]
      rfl
  | case8 answer answers readLen buf hlt => rw [unixReadLoop, if_neg hlt]

/-- Keeping the calls does not change the function. -/
theorem unixSerialReadCalls_snd (len mtimeout : ℤ) (answers : List UnixReadAnswer) (errno : ℤ)
    (ctx : Serial UnixDev) (buf : List UInt8) :
    (unixSerialReadCalls len mtimeout answers errno ctx buf).2
      = unixSerialRead len mtimeout answers errno ctx buf := by
  unfold unixSerialReadCalls unixSerialRead
  by_cases hopen : (!ctx.isOpen) = true
  · rw [if_pos hopen, if_pos hopen]
    rfl
  · rw [if_neg hopen, if_neg hopen]
    by_cases hs : ctx.s = -1
    · rw [if_pos hs, if_pos hs]
      rfl
    · rw [if_neg hs, if_neg hs, ← unixReadLoopCalls_snd]

/-! ## What the loop gathers -/

/-- Each call but the last delivers a byte or more. -/
theorem unixReadLoop_few (len : ℕ) (mtimeout : ℤ) (answers : List UnixReadAnswer) (readLen : ℕ)
    (buf : List UInt8) :
    readLen + (unixReadLoopCalls len mtimeout answers readLen buf).1.length ≤ max len readLen := by
  fun_induction unixReadLoopCalls len mtimeout answers readLen buf with
  | case6 answer answers readLen buf hlt htimeout call temp hread hfit hsome buf' hstore calls res
      hrest ih =>
      rw [hrest] at ih
      simp only [List.length_cons] at ih ⊢
      omega
  | _ => simp only [List.length_nil, List.length_singleton]; omega

/-- The loop stores inside the buffer. -/
theorem unixReadLoop_inBounds (mtimeout : ℤ) (answers : List UnixReadAnswer) (readLen : ℕ)
    (hbuf : len ≤ buf.length) :
    (unixReadLoopCalls len mtimeout answers readLen buf).2 ≠ .error .outOfBounds := by
  fun_induction unixReadLoopCalls len mtimeout answers readLen buf with
  | case1 readLen buf => split <;> simp
  | case5 answer answers readLen buf hlt htimeout call temp hread hfit hsome hstore =>
      rw [store_eq_some (by omega)] at hstore
      cases hstore
  | case6 answer answers readLen buf hlt htimeout call temp hread hfit hsome buf' hstore calls res
      hrest ih =>
      have hle : readLen + temp.length ≤ buf.length := by omega
      obtain rfl : splice buf readLen temp = buf' := by
        rw [store_eq_some hle] at hstore; exact Option.some.inj hstore
      rw [hrest, length_splice hle] at ih
      exact ih hbuf
  | _ => simp

/-- While no call gets more than it asks for, `len` answers are enough. -/
theorem unixReadLoop_total (hbuf : len ≤ buf.length) (hmany : len ≤ readLen + answers.length)
    (hfit : ∀ c ∈ (unixReadLoopCalls len mtimeout answers readLen buf).1, c.Fits) :
    ∃ r, (unixReadLoopCalls len mtimeout answers readLen buf).2 = .ok r := by
  fun_induction unixReadLoopCalls len mtimeout answers readLen buf with
  | case1 readLen buf =>
      rw [List.length_nil] at hmany
      rw [if_neg (by omega)]
      exact ⟨_, rfl⟩
  | case5 answer answers readLen buf hlt htimeout call temp hread hle hsome hstore =>
      rw [store_eq_some (by omega)] at hstore
      cases hstore
  | case6 answer answers readLen buf hlt htimeout call temp hread hle hsome buf' hstore calls res
      hrest ih =>
      have hin : readLen + temp.length ≤ buf.length := by omega
      obtain rfl : splice buf readLen temp = buf' := by
        rw [store_eq_some hin] at hstore; exact Option.some.inj hstore
      rw [hrest, length_splice hin] at ih
      rw [List.length_cons] at hmany
      exact ih hbuf (by omega) fun c hc => hfit c (List.mem_cons_of_mem _ hc)
  | case7 answer answers readLen buf hlt htimeout call temp hread hexcess =>
      have hcall := hfit call List.mem_cons_self temp hread
      simp only [call] at hcall
      omega
  | _ => exact ⟨_, rfl⟩

/-- **The loop loses nothing**, wherever it stops. -/
theorem unixReadLoop_gathers {old : ℕ → Option UInt8} {calls : List (ReadCall UInt8)}
    {returned : Bool}
    {n : ℕ} (h : Gathered len old calls (buf[·]?)) (hn : (delivered calls).length = readLen)
    (hbuf : len ≤ buf.length)
    (hr : (unixReadLoopCalls len mtimeout answers readLen buf).2 = .ok (returned, n, buf')) :
    Gathered len old (calls ++ (unixReadLoopCalls len mtimeout answers readLen buf).1) (buf'[·]?) ∧
      (delivered (calls ++ (unixReadLoopCalls len mtimeout answers readLen buf).1)).length = n := by
  revert calls
  fun_induction unixReadLoopCalls len mtimeout answers readLen buf with
  | case1 readLen buf =>
      intro calls h hn
      split at hr
      · cases hr
      · cases hr
        rw [List.append_nil]
        exact ⟨h, hn⟩
  | case2 answer answers readLen buf hlt htimeout =>
      intro calls h hn
      cases hr
      rw [List.append_nil]
      exact ⟨h, hn⟩
  | case3 answer answers readLen buf hlt htimeout call hread =>
      intro calls h hn
      cases hr
      refine ⟨h.nothing (by omega) (by rw [hread]; rfl), ?_⟩
      simpa [call, hread] using hn
  | case4 answer answers readLen buf hlt htimeout call temp hread hfit hnone =>
      intro calls h hn
      cases hr
      obtain rfl := List.length_eq_zero_iff.mp hnone
      refine ⟨h.nothing (by omega) (by rw [hread]; rfl), ?_⟩
      simpa [call, hread] using hn
  | case5 => cases hr
  | case6 answer answers readLen buf hlt htimeout call temp hread hfit hsome buf₁ hstore calls₁ res
      hrest ih =>
      intro calls h hn
      have hin : readLen + temp.length ≤ buf.length := by omega
      obtain rfl : splice buf readLen temp = buf₁ := by
        rw [store_eq_some hin] at hstore; exact Option.some.inj hstore
      have hgot : Gathered len old (calls ++ [call]) ((splice buf readLen temp)[·]?) := by
        simp only [call, hread]
        refine h.got (by omega) (by omega) (fun j hj => ?_) (fun j hj => ?_) fun j hj => ?_
        · exact getElem?_splice_before (by omega) (by omega)
        · rw [hn]; exact getElem?_splice_stored hj (by omega)
        · exact getElem?_splice_behind (by omega) (by omega)
      have hlength : (delivered (calls ++ [call])).length = readLen + temp.length := by
        simp [call, hread, hn]
      have hrun := ih (by rw [length_splice hin]; exact hbuf) (by rw [hrest]; exact hr) hgot hlength
      rw [hrest, List.append_assoc] at hrun
      exact hrun
  | case7 => cases hr
  | case8 answer answers readLen buf hlt =>
      intro calls h hn
      cases hr
      rw [List.append_nil]
      exact ⟨h, hn⟩

/-! ## What the function owes its caller -/

/-- The ways of `unix_serial_read`: it refuses a closed line, or runs the loop. -/
theorem unixSerialReadCalls_cases (len mtimeout : ℤ) (answers : List UnixReadAnswer) (errno : ℤ)
    (ctx : Serial UnixDev) (buf : List UInt8) :
    unixSerialReadCalls len mtimeout answers errno ctx buf = ([], .ok (-1, ctx, buf)) ∨
    unixSerialReadCalls len mtimeout answers errno ctx buf
      = ((unixReadLoopCalls len mtimeout answers 0 buf).1, do
          let (returned, readLen, buf) ← (unixReadLoopCalls len mtimeout answers 0 buf).2
          if returned then return (readLen, ctx, buf)
          if readLen ≤ 0 then return (-1, { ctx with errCode := errno }, buf)
          return (readLen, ctx, buf)) := by
  unfold unixSerialReadCalls
  by_cases hopen : (!ctx.isOpen) = true
  · exact .inl (if_pos hopen)
  · by_cases hs : ctx.s = -1
    · exact .inl ((if_neg hopen).trans (if_pos hs))
    · exact .inr ((if_neg hopen).trans (if_neg hs))

/-- `unix_serial_read` calls `read` at most `len` times, or not at all. -/
theorem unixSerialRead_few (len : ℕ) (mtimeout : ℤ) (answers : List UnixReadAnswer) (errno : ℤ)
    (ctx : Serial UnixDev) (buf : List UInt8) :
    (unixSerialReadCalls len mtimeout answers errno ctx buf).1.length ≤ max len 1 := by
  obtain h | h := unixSerialReadCalls_cases len mtimeout answers errno ctx buf
  · rw [h, List.length_nil]; omega
  · have hfew := unixReadLoop_few len mtimeout answers 0 buf
    rw [h]
    dsimp only
    omega

/-- `unix_serial_read` stores inside the buffer. -/
theorem unixSerialRead_inBounds (mtimeout : ℤ) (answers : List UnixReadAnswer) (errno : ℤ)
    (ctx : Serial UnixDev) (hbuf : len ≤ buf.length) :
    unixSerialRead len mtimeout answers errno ctx buf ≠ .error .outOfBounds := by
  rw [← unixSerialReadCalls_snd]
  obtain h | h := unixSerialReadCalls_cases len mtimeout answers errno ctx buf
  · rw [h]; simp
  · have hin := unixReadLoop_inBounds mtimeout answers 0 hbuf
    rw [h]
    dsimp only
    intro herror
    obtain hfail | ⟨⟨returned, n, buf'⟩, -, hrest⟩ := bind_eq_error.mp herror
    · exact hin hfail
    · cases returned with
      | true => cases hrest
      | false => by_cases hn : n ≤ 0 <;> simp only [hn, if_true, if_false] at hrest <;> cases hrest

/-- `unix_serial_read` returns once it has had an answer for each byte it may take. -/
theorem unixSerialRead_total (hbuf : len ≤ buf.length) (hmany : len ≤ answers.length)
    (hfit : ∀ c ∈ (unixSerialReadCalls len mtimeout answers errno ctx buf).1, c.Fits) :
    ∃ r, unixSerialRead len mtimeout answers errno ctx buf = .ok r := by
  rw [← unixSerialReadCalls_snd]
  obtain h | h := unixSerialReadCalls_cases len mtimeout answers errno ctx buf
  · exact ⟨_, by rw [h]⟩
  · rw [h] at hfit
    obtain ⟨⟨returned, n, buf'⟩, hloop⟩ := unixReadLoop_total hbuf (by omega) hfit
    rw [h]
    dsimp only
    rw [hloop]
    cases returned with
    | true => exact ⟨_, rfl⟩
    | false => by_cases hn : n ≤ 0 <;> simp only [ok_bind, hn] <;> exact ⟨_, rfl⟩

/-- **`unix_serial_read` loses nothing.** -/
theorem unixSerialRead_lossless {ret : ℤ} {ctx' : Serial UnixDev} (hbuf : len ≤ buf.length)
    (hr : unixSerialRead len mtimeout answers errno ctx buf = .ok (ret, ctx', buf')) :
    Lossless len (unixSerialReadCalls len mtimeout answers errno ctx buf).1 ret (buf[·]?)
      (buf'[·]?) := by
  have hstart := Gathered.start len (fun j => buf[j]?)
  rw [← unixSerialReadCalls_snd] at hr
  obtain h | h := unixSerialReadCalls_cases len mtimeout answers errno ctx buf
  · rw [h] at hr ⊢
    cases hr
    exact hstart.lossless_failed rfl
  · rw [h] at hr ⊢
    obtain ⟨⟨returned, n, buf₁⟩, hloop, hrest⟩ := bind_eq_ok.mp hr
    obtain ⟨hgathered, hn⟩ := unixReadLoop_gathers hstart
      (show (delivered ([] : List (ReadCall UInt8))).length = 0 from rfl) hbuf hloop
    rw [List.nil_append] at hgathered hn
    subst hn
    cases returned with
    | true =>
        cases hrest
        exact hgathered.lossless
    | false =>
        by_cases hn : (delivered (unixReadLoopCalls len mtimeout answers 0 buf).1).length ≤ 0
        · simp only [Bool.false_eq_true, if_false, if_pos hn] at hrest
          cases hrest
          exact hgathered.lossless_failed (List.length_eq_zero_iff.mp (Nat.le_zero.mp hn))
        · simp only [Bool.false_eq_true, if_false, if_neg hn] at hrest
          cases hrest
          exact hgathered.lossless

end LibZio
