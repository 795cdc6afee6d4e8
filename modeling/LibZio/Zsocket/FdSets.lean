import LibZio.Foundation.Machine
import LibZio.Zsocket.FdRange
import LibZio.Zsocket.PassDiscipline
import LibZio.Zsocket.Runs

/-! # The indexes of the `fd_set` macros

Every index that the library gives to `FD_SET`, `FD_CLR` and `FD_ISSET` is the descriptor of one of
its sockets, and nothing in `zsocket.c` compares a descriptor with `FD_SETSIZE`. The calls of a
step, made by the program or by one of its callbacks, are followed one by one; around them a step
gives the sets only descriptors of sockets on the list (`Sys.step_ranged`). So in every run the
indexes are in range, and sockets whose descriptor is not are refused, exactly as long as every
descriptor that a call obtains fits (`fd_sets_in_range_iff`).

These are the runs in which no callback calls `zsocket_loop`. Where one does, it is not enough that
the descriptors fit: a `connection_cb` that closes its server and enters the loop again has the
server torn down, and the traversal around it goes on with `FD_ISSET(-1, ..)`. -/

namespace LibZio

variable {w w' v u : World} {s pos : Sid} {z : ZSocket} {cs : List Api} {c c' : Sys} {i : Input}

/-- The calls of the API as a machine. -/
def api : Machine World Api Fault where
  init := {}
  step w c := c.run w

/-- The world in which `zsocket_handle_recv` calls its callback, if it gets there. -/
def World.callsBack (w : World) (s : Sid) (io : RecvIo) : Option World :=
  match w.mem s with
  | .live z =>
      if z.type ≠ .none ∧ z.eof = false ∧ z.readEnable = true then
        if z.type = .server then z.connectionCb.map fun cb => w.log (.connectionCb s cb)
        else do
          let q ← io.buffer z.rbuf
          let q' ← (recvStore q io).toOption
          let cb ← z.readCb
          let (buf, len) ← (recvOffer q').toOption
          return w.offered s z io (qbufSpare q) q' cb buf len
      else none
  | _ => none

/-- The calls that the program makes in a step, and the world in which it makes the first of
them. -/
def Sys.calls (c : Sys) (i : Input) : Option (List Api × World) :=
  match c.ctl, i with
  | .idle, .call a => some ([a], c.world)
  | .poll (some pos) fdsRead _ _, .visit io =>
      match c.world.mem pos with
      | .live z =>
          if World.InRange z.fd ∧ z.fd ∈ fdsRead then
            (c.world.callsBack pos io.recv).map fun w => (io.recv.script, w)
          else none
      | _ => none
  | _, _ => none

/-- The calls of a step that have a descriptor watched or no longer watched name registered
sockets. -/
def NamesRegistered (c : Sys) (i : Input) : Prop :=
  ∀ a ∈ c.calls i, api.Meets (fun w c => c.registered w = true) a.1 a.2

/-- The descriptors that the calls of a step obtain fit into an `fd_set`. -/
def ObtainsFit (c : Sys) (i : Input) : Prop :=
  ∀ a ∈ c.calls i, api.Meets (fun w c => c.ObtainsFit w) a.1 a.2

instance (c : Sys) (i : Input) : Decidable (NamesRegistered c i) :=
  inferInstanceAs
    (Decidable (∀ a ∈ c.calls i, api.Meets (fun w c => c.registered w = true) a.1 a.2))

instance (c : Sys) (i : Input) : Decidable (ObtainsFit c i) :=
  inferInstanceAs (Decidable (∀ a ∈ c.calls i, api.Meets (fun w c => c.ObtainsFit w) a.1 a.2))

/-! ## Callbacks -/

/-- **A callback that obtains descriptors that fit** gives the sets no index out of range, and keeps
the registered descriptors in range after each of its calls. -/
theorem runScript_ranged (hw : w.WF) (h : w.Fitting)
    (hr : api.Meets (fun w c => c.registered w = true) cs w)
    (ho : api.Meets (fun w c => c.ObtainsFit w) cs w) :
    FailsIn Fault.Ranged (runScript cs w) ∧ (∀ w', runScript cs w = .ok w' → w'.WF ∧ w'.Fitting) ∧
      api.Throughout (fun _ _ w => w.FdsInRange) cs w := by
  induction cs generalizing w with
  | nil =>
      refine ⟨.ok w, fun w' hok => ?_, trivial⟩
      cases hok
      exact ⟨hw, h⟩
  | cons c cs ih =>
      obtain ⟨hr, hrs⟩ := hr
      obtain ⟨ho, hos⟩ := ho
      have rest : ∀ v, c.run w = .ok v → v.WF ∧ v.Fitting ∧ _ := fun v hv =>
        have hwv := (Api.run_moves c hw hv).wf hw
        have hv' := Api.run_fitting hw h ho hv
        ⟨hwv, hv', ih hwv hv' (hrs v hv) (hos v hv)⟩
      refine ⟨(Api.run_ranged hw h hr ho).bind fun v hv => (rest v hv).2.2.1, fun w' hok => ?_,
        fun v hv => ?_⟩
      · obtain ⟨v, hv, hok⟩ := bind_eq_ok.mp hok
        exact (rest v hv).2.2.2.1 w' hok
      · obtain ⟨hwv, hv', -, -, hall⟩ := rest v hv
        exact ⟨hv'.fdsInRange hwv, hall⟩

/-- **When `zsocket_handle_recv` calls back**, and in which world. -/
theorem World.callsBack_eq_some {io : RecvIo} : w.callsBack s io = some v ↔
    ∃ z, w.mem s = .live z ∧ z.RecvEntry ∧
      (z.type = .server ∧ (∃ cb, z.connectionCb = some cb ∧ v = w.log (.connectionCb s cb)) ∨
        z.type ≠ .server ∧ ∃ q q' cb buf len, io.buffer z.rbuf = some q ∧ recvStore q io = .ok q' ∧
          z.readCb = some cb ∧ recvOffer q' = .ok (buf, len) ∧
          v = w.offered s z io (qbufSpare q) q' cb buf len) := by
  have toOption {α : Type} {x : Res α} {a : α} : x.toOption = some a ↔ x = .ok a := by
    cases x <;> simp [Except.toOption]
  constructor
  · intro h
    unfold World.callsBack at h
    split at h
    · next z hz =>
      obtain ⟨⟨htype, heof, henable⟩, h⟩ := Option.ite_none_right_eq_some.mp h
      refine ⟨z, hz, ⟨htype, heof, henable⟩, ?_⟩
      by_cases hs : z.type = .server
      · rw [if_pos hs] at h
        obtain ⟨cb, hcb, rfl⟩ := Option.map_eq_some_iff.mp h
        exact .inl ⟨hs, cb, hcb, rfl⟩
      · rw [if_neg hs] at h
        obtain ⟨q, hq, h⟩ := Option.bind_eq_some_iff.mp h
        obtain ⟨q', hq', h⟩ := Option.bind_eq_some_iff.mp h
        obtain ⟨cb, hcb, h⟩ := Option.bind_eq_some_iff.mp h
        obtain ⟨⟨buf, len⟩, hoffer, h⟩ := Option.bind_eq_some_iff.mp h
        cases h
        exact .inr ⟨hs, q, q', cb, buf, len, hq, toOption.mp hq', hcb, toOption.mp hoffer, rfl⟩
    · cases h
  · rintro ⟨z, hz, ⟨htype, heof, henable⟩, hways⟩
    simp only [World.callsBack, hz]
    rw [if_pos ⟨htype, heof, henable⟩]
    obtain ⟨hs, cb, hcb, rfl⟩ | ⟨hs, q, q', cb, buf, len, hq, hq', hcb, hoffer, rfl⟩ := hways
    · rw [if_pos hs, hcb]
      rfl
    · rw [if_neg hs]
      refine Option.bind_eq_some_iff.mpr
        ⟨q, hq, Option.bind_eq_some_iff.mpr ⟨q', toOption.mpr hq', ?_⟩⟩
      exact Option.bind_eq_some_iff.mpr ⟨cb, hcb, Option.bind_eq_some_iff.mpr
        ⟨(buf, len), toOption.mpr hoffer, rfl⟩⟩

/-- The callback finds a world as sound as the handler found, in the loop. -/
theorem World.callsBack_sound {io : RecvIo} (hw : w.WF) (h : w.Fitting)
    (hv : w.callsBack s io = some v) : v.WF ∧ v.Fitting := by
  have hm : Moves (recvHeadMay s io) w v := by
    obtain ⟨z, hz, entry, ⟨-, cb, -, rfl⟩ | ⟨-, q, q', cb, buf, len, -, -, -, -, rfl⟩⟩ :=
      World.callsBack_eq_some.mp hv
    · exact .one (.inl rfl) (.log _ trivial)
    · exact offered_moves hz (hw.linked_of_typed hz entry.type entry.eof) entry.eof
  exact ⟨hm.wf hw, hm.fitting h fun t ht => by simp [recvHeadMay] at ht⟩

/-- **When the program makes calls in a step**: it makes one, or a callback makes some. -/
theorem Sys.calls_eq_some {a : List Api × World} : c.calls i = some a ↔
    (∃ x, c.ctl = .idle ∧ i = .call x ∧ a = ([x], c.world)) ∨
      ∃ pos R W left io z v, c.ctl = .poll (some pos) R W left ∧ i = .visit io ∧
        c.world.mem pos = .live z ∧ World.InRange z.fd ∧ z.fd ∈ R ∧
        c.world.callsBack pos io.recv = some v ∧ a = (io.recv.script, v) := by
  constructor
  · intro h
    unfold Sys.calls at h
    split at h
    · next x hctl =>
      cases h
      exact .inl ⟨x, hctl, rfl, rfl⟩
    · next pos R W left io hctl =>
      split at h
      · next z hz =>
        obtain ⟨⟨hfd, hR⟩, h⟩ := Option.ite_none_right_eq_some.mp h
        obtain ⟨v, hv, rfl⟩ := Option.map_eq_some_iff.mp h
        exact .inr ⟨pos, R, W, left, io, z, v, hctl, rfl, hz, hfd, hR, hv, rfl⟩
      · cases h
    · cases h
  · rintro (⟨x, hctl, rfl, rfl⟩ | ⟨pos, R, W, left, io, z, v, hctl, rfl, hz, hfd, hR, hv, rfl⟩)
    · simp only [Sys.calls, hctl]
    · simp only [Sys.calls, hctl, hz]
      rw [if_pos ⟨hfd, hR⟩, hv]
      rfl

/-- The program makes the calls of a step in a world as sound as the step started in. -/
theorem Sys.calls_sound {a : List Api × World} (hc : c.Sound) (h : c.world.Fitting)
    (ha : c.calls i = some a) : a.2.WF ∧ a.2.Fitting := by
  obtain ⟨x, -, -, rfl⟩ | ⟨pos, R, W, left, io, z, v, -, -, -, -, -, hv, rfl⟩ :=
    Sys.calls_eq_some.mp ha
  · exact ⟨hc.wf, h⟩
  · exact World.callsBack_sound hc.wf h hv

/-- The calls of a step whose descriptors fit. -/
theorem ObtainsFit.calls {a : List Api × World} (ho : ObtainsFit c i) (hc : c.Sound)
    (h : c.world.Fitting) (hr : NamesRegistered c i) (ha : c.calls i = some a) :
    FailsIn Fault.Ranged (runScript a.1 a.2) ∧
      (∀ w', runScript a.1 a.2 = .ok w' → w'.WF ∧ w'.Fitting) ∧
      api.Throughout (fun _ _ w => w.FdsInRange) a.1 a.2 := by
  obtain ⟨hw, hfit⟩ := Sys.calls_sound hc h ha
  exact runScript_ranged hw hfit (hr a ha) (ho a ha)

end LibZio
