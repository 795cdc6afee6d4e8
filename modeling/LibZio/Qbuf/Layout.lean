import LibZio.Qbuf.Growth
import LibZio.Qbuf.Queue

/-! # The layout of a buffer is unobservable

What the calls on a queue buffer return depends on its size and its contents alone, and not on where
in the block the contents lie. `Content` is a buffer without a layout, on which each call has an
effect of its own. A call on a buffer is the call on its content, and `qbuf_collect` is a step that
the content does not see; two buffers of one content are therefore told apart by no sequence of
calls, wherever `qbuf_collect` is called in between. -/

namespace LibZio

/-! ## Contents -/

/-- A buffer without its layout. -/
structure Content where
  size : ℕ
  bytes : List UInt8

/-- The content of a buffer. -/
def QBuf.content (q : QBuf) : Content := ⟨q.size, stored q⟩

/-- A call whose results a program can see. -/
inductive QCall
  /-- `qbuf_write`, with whether the `realloc` it may ask for succeeds. -/
  | write (buf : List UInt8) (grows : Bool)
  /-- `qbuf_read`. -/
  | read (len : ℕ)
  /-- `qbuf_peek`. -/
  | peek (len : ℕ)
  /-- `qbuf_used`. -/
  | used
  /-- `qbuf_size`. -/
  | size

/-- What is seen of a call. -/
inductive QObs
  /-- The count returned, and the length asked of `realloc` if it was called. -/
  | wrote (count : ℕ) (asked : Option ℕ)
  | read (count : ℕ) (bytes : List UInt8)
  | peeked (count : ℕ) (bytes : List UInt8)
  | used (count : ℕ)
  | size (count : ℕ)
  deriving DecidableEq

/-- The lengths a program passes are below `2 ^ 31`. -/
def QCall.Legal : QCall → Prop
  | .write buf _ => buf.length < 2 ^ 31
  | .read len => len < 2 ^ 31
  | .peek len => len < 2 ^ 31
  | .used => True
  | .size => True

namespace Content

/-- The effect of a call on a content, and what is seen of it. -/
def exec (c : Content) : QCall → QObs × Content
  | .write buf grows =>
      let asked := askFor c.size c.bytes.length buf.length
      let count := takes c.size c.bytes.length buf.length grows
      (.wrote count asked,
        ⟨if grows then asked.getD c.size else c.size, c.bytes ++ buf.take count⟩)
  | .read len =>
      (.read (min len c.bytes.length) (c.bytes.take len),
        ⟨c.size, c.bytes.drop (min len c.bytes.length)⟩)
  | .peek len => (.peeked (min len c.bytes.length) (c.bytes.take len), c)
  | .used => (.used c.bytes.length, c)
  | .size => (.size c.size, c)

/-- A step that is no call leaves the content as it is. -/
def after (c : Content) : Option QCall → List QObs × Content
  | none => ([], c)
  | some call => ([(c.exec call).1], (c.exec call).2)

/-- What is seen of a sequence of calls, and the content they lead to. -/
def run : List QCall → Content → List QObs × Content
  | [], c => ([], c)
  | call :: calls, c =>
    ((c.exec call).1 :: (run calls (c.exec call).2).1, (run calls (c.exec call).2).2)

/-- Fewer than `2 ^ 31` bytes are stored after each call. -/
def Bounded : List QCall → Content → Prop
  | [], _ => True
  | call :: calls, c => (c.exec call).2.bytes.length < 2 ^ 31 ∧ Bounded calls (c.exec call).2

end Content

/-! ## Steps of a buffer -/

/-- A step of a run: a call, or `qbuf_collect`. -/
inductive QStep
  | write (buf : List UInt8) (re : Realloc)
  | read (len : ℕ)
  | peek (len : ℕ)
  | used
  | size
  | collect (policy : BitVec 32)

/-- The call that a step makes. What a grown block holds behind the old contents is not part of
it. -/
def QStep.call? : QStep → Option QCall
  | .write buf re => some (.write buf re.isSome)
  | .read len => some (.read len)
  | .peek len => some (.peek len)
  | .used => some .used
  | .size => some .size
  | .collect _ => none

/-- Make one step on a buffer. -/
def QStep.exec (q : QBuf) : QStep → Option (List QObs × QBuf)
  | .write buf re => do
      let (asked, count, q') ← qbufWriteAsked q buf re
      return ([.wrote count asked], q')
  | .read len => do
      let (count, bytes, q') ← qbufRead q len
      return ([.read count bytes], q')
  | .peek len => do
      let (count, bytes) ← qbufPeek q len
      return ([.peeked count bytes], q)
  | .used => some ([.used (qbufUsed q)], q)
  | .size => some ([.size (qbufSize q)], q)
  | .collect policy => do
      let (_, q') ← qbufCollect q policy
      return ([], q')

/-- `LayoutRun q steps seen q'`: the steps lead from `q` to `q'`, with `seen` seen on the way, and
never leave `2 ^ 31` or more bytes stored. -/
inductive LayoutRun : QBuf → List QStep → List QObs → QBuf → Prop
  | nil {q : QBuf} : LayoutRun q [] [] q
  | cons {q q₁ q' : QBuf} {step : QStep} {steps : List QStep} {seen₁ seen : List QObs}
      (exec : step.exec q = some (seen₁, q₁)) (bound : qbufUsed q₁ < 2 ^ 31)
      (rest : LayoutRun q₁ steps seen q') : LayoutRun q (step :: steps) (seen₁ ++ seen) q'

/-! ## One step -/

/-- A block that was asked for is below `2 ^ 32`, or `2 ^ 31` bytes are stored in it. -/
theorem askFor_lt {size used len : ℕ} (hs : size < 2 ^ 32) (hl : len < 2 ^ 31) :
    (askFor size used len).getD size < 2 ^ 32 ∨ 2 ^ 31 ≤ used + len := by
  unfold askFor growTo
  split
  · exact .inl hs
  · split
    · rw [Option.getD_some, sizeShl1_of_lt (by omega)]; omega
    · rw [Option.getD_some, sizeShl1_of_lt (by omega)]; omega

/-- **A step on a buffer is the step on its content.** -/
theorem QStep.exec_content {q : QBuf} (hq : QueueInv q) (step : QStep)
    (legal : ∀ call, step.call? = some call → call.Legal) :
    ∃ q', step.exec q = some ((q.content.after step.call?).1, q') ∧
      q'.content = (q.content.after step.call?).2 ∧ q'.Valid ∧
      (q'.size < 2 ^ 32 ∨ 2 ^ 31 ≤ qbufUsed q') := by
  obtain ⟨h, hused, hsize⟩ := hq
  have hlen := h.length_stored
  cases step with
  | write buf re =>
      have hbuf : buf.length < 2 ^ 31 := legal _ rfl
      obtain ⟨q', hw, hv, hst, hsz⟩ :=
        qbufWriteAsked_eq h (by omega) (show buf.length < 2 ^ 63 by omega) re
      have hcontent : q'.content =
          ⟨if re.isSome then (askFor q.size (stored q).length buf.length).getD q.size else q.size,
            stored q ++ buf.take (takes q.size (stored q).length buf.length re.isSome)⟩ := by
        rw [QBuf.content, hst, hsz, hlen]
      refine ⟨q', ?_, hcontent, hv, ?_⟩
      · simp only [QStep.exec, hw, Option.bind_eq_bind, Option.bind_some]
        rw [← hlen]
        rfl
      · rw [hsz]
        cases re with
        | none => exact .inl hsize
        | some fill =>
            -- a `realloc` that succeeds leaves room for all bytes
            have hall : takes q.size (qbufUsed q) buf.length (some fill).isSome = buf.length :=
              if_pos (.inr rfl)
            have hused' : qbufUsed q' = qbufUsed q + buf.length := by
              rw [← hv.length_stored, hst, List.length_append, hlen, hall, List.take_length]
            rw [hused']
            exact askFor_lt hsize hbuf
  | read len =>
      have hn : min len (qbufUsed q) < 2 ^ 31 := by omega
      refine ⟨_, ?_, ?_, h.skip (Nat.min_le_right len _), .inl hsize⟩
      · simp only [QStep.exec, qbufRead_eq h hn, Option.bind_eq_bind, Option.bind_some, ← hlen]
        rfl
      · rw [QBuf.content, stored_skip, ← hlen]
        rfl
  | peek len =>
      refine ⟨q, ?_, rfl, h, .inl hsize⟩
      simp only [QStep.exec, qbufPeek_eq h, Option.bind_eq_bind, Option.bind_some, ← hlen]
      rfl
  | used => exact ⟨q, by rw [QStep.exec, ← hlen]; rfl, rfl, h, .inl hsize⟩
  | size => exact ⟨q, rfl, rfl, h, .inl hsize⟩
  | collect policy =>
      obtain ⟨q', hc, hv, hst, hsz⟩ := qbufCollect_spec h policy
      refine ⟨q', ?_, ?_, hv, .inl (by omega)⟩
      · simp only [QStep.exec, hc, Option.bind_eq_bind, Option.bind_some]
        rfl
      · rw [QBuf.content, hst, hsz]
        rfl

/-! ## Whole runs -/

/-- A legal step, made in front of legal steps. -/
theorem legal_of_cons {step : QStep} {steps : List QStep}
    (legal : ∀ call ∈ (step :: steps).filterMap QStep.call?, QCall.Legal call) :
    (∀ call, step.call? = some call → call.Legal) ∧
      ∀ call ∈ steps.filterMap QStep.call?, QCall.Legal call := by
  constructor
  · exact fun call hcall => legal call (List.mem_filterMap.mpr ⟨step, by simp, hcall⟩)
  · intro call hcall
    obtain ⟨s, hs, heq⟩ := List.mem_filterMap.mp hcall
    exact legal call (List.mem_filterMap.mpr ⟨s, by simp [hs], heq⟩)

/-- A step in front of a run, on contents. -/
theorem Content.run_after (c : Content) (step : QStep) (steps : List QStep) :
    c.run ((step :: steps).filterMap QStep.call?) =
      ((c.after step.call?).1 ++ ((c.after step.call?).2.run (steps.filterMap QStep.call?)).1,
        ((c.after step.call?).2.run (steps.filterMap QStep.call?)).2) := by
  cases hcall : step.call? with
  | none => rw [List.filterMap_cons_none hcall]; rfl
  | some call => rw [List.filterMap_cons_some hcall]; rfl

/-- **A run of a buffer is the run of its content**, whatever its layout. -/
theorem LayoutRun.content {q q' : QBuf} {steps : List QStep} {seen : List QObs} (hq : QueueInv q)
    (legal : ∀ call ∈ steps.filterMap QStep.call?, QCall.Legal call)
    (run : LayoutRun q steps seen q') :
    QueueInv q' ∧ seen = (q.content.run (steps.filterMap QStep.call?)).1 ∧
      q'.content = (q.content.run (steps.filterMap QStep.call?)).2 ∧
      q.content.Bounded (steps.filterMap QStep.call?) := by
  induction run with
  | nil => exact ⟨hq, rfl, rfl, trivial⟩
  | @cons q q₁ q' step steps seen₁ seen exec bound rest ih =>
      obtain ⟨hstep, hrest⟩ := legal_of_cons legal
      obtain ⟨q₂, hexec, hcontent, hv, hsize⟩ := QStep.exec_content hq step hstep
      obtain ⟨rfl, rfl⟩ := Prod.mk.inj (Option.some.inj (exec.symm.trans hexec))
      obtain ⟨hq', rfl, hc', hb⟩ := ih ⟨hv, bound, by omega⟩ hrest
      rw [Content.run_after, ← hcontent]
      refine ⟨hq', rfl, hc', ?_⟩
      cases hcall : step.call? with
      | none =>
          rw [List.filterMap_cons_none hcall]
          rw [hcall] at hcontent
          rwa [hcontent] at hb
      | some call =>
          rw [List.filterMap_cons_some hcall]
          rw [hcall] at hcontent
          have hbytes : (q.content.exec call).2 = q₁.content := hcontent.symm
          refine ⟨?_, ?_⟩
          · rw [hbytes]
            exact lt_of_eq_of_lt hv.length_stored bound
          · rw [hbytes]
            exact hb

/-- A run of the content that keeps fewer than `2 ^ 31` bytes stored is a run of every buffer with
that content. -/
theorem LayoutRun.of_content {q : QBuf} {steps : List QStep} (hq : QueueInv q)
    (legal : ∀ call ∈ steps.filterMap QStep.call?, QCall.Legal call)
    (bounded : q.content.Bounded (steps.filterMap QStep.call?)) :
    ∃ seen q', LayoutRun q steps seen q' := by
  induction steps generalizing q with
  | nil => exact ⟨[], q, .nil⟩
  | cons step steps ih =>
      obtain ⟨hstep, hrest⟩ := legal_of_cons legal
      obtain ⟨q₁, hexec, hcontent, hv, hsize⟩ := QStep.exec_content hq step hstep
      have hbound : qbufUsed q₁ < 2 ^ 31 ∧ q₁.content.Bounded (steps.filterMap QStep.call?) := by
        rw [← hv.length_stored]
        change q₁.content.bytes.length < 2 ^ 31 ∧ _
        rw [hcontent]
        cases hcall : step.call? with
        | none =>
            rw [List.filterMap_cons_none hcall] at bounded
            exact ⟨lt_of_eq_of_lt hq.valid.length_stored hq.used_lt, bounded⟩
        | some call =>
            rw [List.filterMap_cons_some hcall] at bounded
            exact bounded
      obtain ⟨seen, q', hrun⟩ := ih ⟨hv, hbound.1, by omega⟩ hrest hbound.2
      exact ⟨_, q', .cons hexec hbound.1 hrun⟩

/-- **The layout of a buffer is unobservable.** Two buffers of the same size with the same contents,
on which the same calls are made, with calls of `qbuf_collect` anywhere in between, return the same,
ask the same of `realloc` and end with the same size and contents; and no legal step is
undefined. -/
theorem layout_unobservable {p q p' : QBuf} {steps steps' : List QStep} {seen : List QObs}
    (hp : p.Valid) (hq : q.Valid) (hsize : p.size < 2 ^ 31) (size : q.size = p.size)
    (contents : stored q = stored p)
    (calls : steps'.filterMap QStep.call? = steps.filterMap QStep.call?)
    (legal : ∀ call ∈ steps.filterMap QStep.call?, QCall.Legal call)
    (run : LayoutRun p steps seen p') :
    (∃ q', LayoutRun q steps' seen q') ∧
      (∀ seen' q', LayoutRun q steps' seen' q' →
        seen' = seen ∧ q'.size = p'.size ∧ stored q' = stored p') ∧
      ∀ step : QStep, (∀ call, step.call? = some call → call.Legal) →
        ∃ seen' p'', step.exec p' = some (seen', p'') := by
  have hinv : ∀ r : QBuf, r.Valid → r.size = p.size → QueueInv r := by
    intro r hr hrs
    have := hr.used_le_size
    exact ⟨hr, by omega, by omega⟩
  have hcontent : q.content = p.content := by rw [QBuf.content, QBuf.content, size, contents]
  obtain ⟨hp', rfl, hfinal, hbounded⟩ := run.content (hinv p hp rfl) legal
  have same : ∀ seen' q', LayoutRun q steps' seen' q' →
      seen' = (p.content.run (steps.filterMap QStep.call?)).1 ∧ q'.content = p'.content := by
    intro seen' q' run'
    obtain ⟨-, rfl, hfinal', -⟩ := run'.content (hinv q hq size) (by rw [calls]; exact legal)
    rw [hfinal, hfinal', calls, hcontent]
    exact ⟨rfl, rfl⟩
  refine ⟨?_, fun seen' q' run' => ?_, fun step hstep => ?_⟩
  · obtain ⟨seen', q', run'⟩ := @LayoutRun.of_content q steps' (hinv q hq size)
      (by rw [calls]; exact legal) (by rw [calls, hcontent]; exact hbounded)
    obtain ⟨rfl, -⟩ := same seen' q' run'
    exact ⟨q', run'⟩
  · obtain ⟨hseen, hc⟩ := same seen' q' run'
    exact ⟨hseen, congrArg Content.size hc, congrArg Content.bytes hc⟩
  · obtain ⟨p'', hexec, -⟩ := QStep.exec_content hp' step hstep
    exact ⟨_, p'', hexec⟩

/-- A buffer whose contents lie at the front, and one that is compacted before the write. -/
theorem layout_unobservable_compacting :
    (∃ q', LayoutRun ⟨[9, 2, 3, 9], 4, 3, 1⟩ [.collect 0, .write [4, 5, 6] none]
      [.wrote 2 (some 8)] q') ∧
    ∀ seen' q', LayoutRun ⟨[9, 2, 3, 9], 4, 3, 1⟩ [.collect 0, .write [4, 5, 6] none] seen' q' →
      seen' = [.wrote 2 (some 8)] ∧ q'.size = 4 ∧ stored q' = [2, 3, 4, 5] := by
  have hexec : QStep.exec ⟨[2, 3, 0, 0], 4, 2, 0⟩ (.write [4, 5, 6] none) =
      some ([.wrote 2 (some 8)], ⟨[2, 3, 4, 5], 4, 4, 0⟩) := by decide +kernel
  have run : LayoutRun ⟨[2, 3, 0, 0], 4, 2, 0⟩ [.write [4, 5, 6] none] [.wrote 2 (some 8)]
      ⟨[2, 3, 4, 5], 4, 4, 0⟩ := .cons hexec (by decide +kernel) .nil
  obtain ⟨hrun, hsame, -⟩ :=
    @layout_unobservable ⟨[2, 3, 0, 0], 4, 2, 0⟩ ⟨[9, 2, 3, 9], 4, 3, 1⟩ _ [.write [4, 5, 6] none]
      [.collect 0, .write [4, 5, 6] none] _
      ⟨by decide, by decide, rfl, by decide⟩ ⟨by decide, by decide, rfl, by decide⟩
      (by decide) rfl rfl rfl
      (by
        intro call hcall
        obtain rfl := List.mem_singleton.mp hcall
        exact (by decide : 3 < 2 ^ 31))
      run
  exact ⟨hrun, hsame⟩

end LibZio
