import LibZio.Foundation.Machine
import LibZio.Zsocket.Loop

/-! # The library as a machine

`zio` is the library together with the program that uses it: between calls it is idle, and during
`zsocket_loop` it stands between two iterations of one of the two traversals. A step is one API
call, the entry into the loop, one iteration, or the end of a traversal, and is composed of the
functions of `Loop`. The loop is entered only from idle: the calls that a callback makes inside an
iteration are never `zsocket_loop`, and the runs of `zio` are the runs of programs that keep to
this. The big-step functions and the machine agree: every call of `zsocket_loop` is a run of the
machine (`zsocketLoop_run`). -/

namespace LibZio

/-- Where control stands. -/
inductive Ctl
  /-- Outside `zsocket_loop`. -/
  | idle
  /-- In the traversal of `zsocket_poll`, about to visit `pos`. -/
  | poll (pos : Option Sid) (fdsRead fdsWrite : Finset ℤ) (nfdsSelected : ℤ)
  /-- In the traversal of `zsocket_do_close`, about to visit `pos`, with the successor saved. -/
  | close (pos n : Option Sid)

/-- The library between two steps. -/
structure Sys where
  ctl : Ctl
  world : World

/-- The inputs of a step: what the program, its callbacks and the environment do. -/
inductive Input
  /-- An API call outside the loop. -/
  | call (c : Api)
  /-- Entry into `zsocket_loop`, up to the return of `select`. -/
  | loop (timeout : ℤ) (select : SelectIo)
  /-- One iteration of the traversal of `zsocket_poll`. -/
  | visit (io : VisitIo)
  /-- The traversal of `zsocket_poll` is at its end. -/
  | endPoll
  /-- One iteration of the traversal of `zsocket_do_close`. -/
  | closeVisit (io : CloseIo)
  /-- The traversal of `zsocket_do_close` is at its end, and the loop returns. -/
  | endClose

/-- Enter the traversal of `zsocket_do_close`. -/
def startClose (w : World) : Res Sys := do
  let n ← w.listNextSafe w.listFirst
  return ⟨.close w.listFirst n, w⟩

/-- One step. An input that does not fit the place where control stands is no input. -/
def Sys.step (c : Sys) (i : Input) : Res Sys :=
  match c.ctl, i with
  | .idle, .call a => do
      let w ← a.run c.world
      return ⟨.idle, w⟩
  | .idle, .loop timeout select => do
      match ← pollSelect timeout select { c.world with inLooping := true } with
      | (.done rc, w) =>
          if rc = -1 then return ⟨.idle, w.log (.loopReturn (-1))⟩ else startClose w
      | (.ready fdsRead fdsWrite nfdsSelected, w) =>
          return ⟨.poll w.listFirst fdsRead fdsWrite nfdsSelected, w⟩
  | .poll (some pos) fdsRead fdsWrite nfdsSelected, .visit io => do
      let (handled, w) ← pollVisit fdsRead fdsWrite pos io c.world
      let nfdsSelected := if handled then nfdsSelected - 1 else nfdsSelected
      if handled && nfdsSelected = 0 then startClose w
      else
        let next ← w.listNext pos
        return ⟨.poll next fdsRead fdsWrite nfdsSelected, w⟩
  | .poll none _ _ _, .endPoll => startClose c.world
  | .close (some pos) n, .closeVisit io => do
      let w ← doCloseVisit pos io c.world
      let next ← w.listNextSafe n
      return ⟨.close n next, w⟩
  | .close none _, .endClose =>
      return ⟨.idle, { c.world with inLooping := false }.log (.loopReturn 0)⟩
  | _, _ => .error .environment

/-- The library as a machine, from the moment the program starts. -/
def zio : Machine Sys Input Fault where
  init := ⟨.idle, {}⟩
  step := Sys.step

/-- Whether control stands outside the loop. -/
def Sys.isIdle (c : Sys) : Bool :=
  match c.ctl with
  | .idle => true
  | _ => false

theorem Sys.isIdle_iff {c : Sys} : c.isIdle = true ↔ c.ctl = .idle := by
  obtain ⟨ctl, w⟩ := c
  cases ctl <;> simp [Sys.isIdle]

/-! ## The big-step functions are runs -/

/-- The traversal of `zsocket_do_close` is a run to the point where the loop returns. -/
theorem doCloseFrom_run (io : Sid → CloseIo) (fuel : ℕ) {pos n : Option Sid} {w w' : World}
    (h : doCloseFrom io fuel pos n w = .ok w') :
    ∃ is m, zio.run is ⟨.close pos n, w⟩ = .ok ⟨.close none m, w'⟩ := by
  induction fuel generalizing pos n w with
  | zero =>
      cases pos with
      | none => cases h; exact ⟨[], n, rfl⟩
      | some pos => cases h
  | succ fuel ih =>
      cases pos with
      | none => cases h; exact ⟨[], n, rfl⟩
      | some pos =>
          obtain ⟨w₁, hv, h⟩ := bind_eq_ok.mp h
          obtain ⟨next, hn, h⟩ := bind_eq_ok.mp h
          obtain ⟨is, m, hrun⟩ := ih h
          refine ⟨.closeVisit (io pos) :: is, m, bind_eq_ok.mpr ⟨⟨.close n next, w₁⟩, ?_, hrun⟩⟩
          exact bind_eq_ok.mpr ⟨w₁, hv, bind_eq_ok.mpr ⟨next, hn, rfl⟩⟩

/-- `zsocket_do_close` is a run to the point where the loop returns. -/
theorem zsocketDoClose_run (io : Sid → CloseIo) {w w' : World} (h : zsocketDoClose io w = .ok w') :
    ∃ c is m, startClose w = .ok c ∧ zio.run is c = .ok ⟨.close none m, w'⟩ := by
  obtain ⟨n, hn, h⟩ := bind_eq_ok.mp h
  obtain ⟨is, m, hrun⟩ := doCloseFrom_run io _ h
  exact ⟨_, is, m, bind_eq_ok.mpr ⟨n, hn, rfl⟩, hrun⟩

/-- The traversal of `zsocket_poll` is a run to the start of `zsocket_do_close`. -/
theorem pollFrom_run (fdsRead fdsWrite : Finset ℤ) (io : Sid → VisitIo) (fuel : ℕ)
    {pos : Option Sid} {left : ℤ} {w w' : World} {c : Sys}
    (h : pollFrom fdsRead fdsWrite io fuel pos left w = .ok w') (hc : startClose w' = .ok c) :
    ∃ is, zio.run is ⟨.poll pos fdsRead fdsWrite left, w⟩ = .ok c := by
  induction fuel generalizing pos left w with
  | zero =>
      cases pos with
      | none => cases h; exact ⟨[.endPoll], bind_eq_ok.mpr ⟨c, hc, rfl⟩⟩
      | some pos => cases h
  | succ fuel ih =>
      cases pos with
      | none => cases h; exact ⟨[.endPoll], bind_eq_ok.mpr ⟨c, hc, rfl⟩⟩
      | some pos =>
          obtain ⟨⟨handled, w₁⟩, hv, h⟩ := bind_eq_ok.mp h
          dsimp only at h
          -- what the iteration leaves of the number of ready descriptors
          generalize hleft : (if handled then left - 1 else left) = left' at h
          by_cases hbreak : (handled && decide (left' = 0)) = true
          · rw [if_pos hbreak] at h
            cases h
            refine ⟨[.visit (io pos)], bind_eq_ok.mpr ⟨c, ?_, rfl⟩⟩
            refine bind_eq_ok.mpr ⟨(handled, w'), hv, ?_⟩
            dsimp only
            rw [hleft, if_pos hbreak]
            exact hc
          · rw [if_neg hbreak] at h
            obtain ⟨next, hn, h⟩ := bind_eq_ok.mp h
            obtain ⟨is, hrun⟩ := ih h
            refine ⟨.visit (io pos) :: is, bind_eq_ok.mpr ⟨_, ?_, hrun⟩⟩
            refine bind_eq_ok.mpr ⟨(handled, w₁), hv, ?_⟩
            dsimp only
            rw [hleft, if_neg hbreak]
            exact bind_eq_ok.mpr ⟨next, hn, rfl⟩

/-- **A call of `zsocket_loop` is a run of the machine** from idle to idle. -/
theorem zsocketLoop_run (timeout : ℤ) (select : SelectIo) (visits : Sid → VisitIo)
    (closes : Sid → CloseIo) {w w' : World} {rc : ℤ}
    (h : zsocketLoop timeout select visits closes w = .ok (rc, w')) :
    ∃ is, zio.run is ⟨.idle, w⟩ = .ok ⟨.idle, w'⟩ := by
  obtain ⟨⟨rc₁, w₁⟩, hp, h⟩ := bind_eq_ok.mp h
  obtain ⟨⟨sel, w₂⟩, hsel, hp⟩ := bind_eq_ok.mp hp
  -- once the poll has succeeded with `0`, the deferred closes run up to the return of the loop
  have finish :
      ∀ {v v' : World} {c : Sys}, zsocketDoClose closes v = .ok v' → startClose v = .ok c →
        ∃ is, zio.run is c = .ok ⟨.idle, { v' with inLooping := false }.log (.loopReturn 0)⟩ := by
    intro v v' c hd hc
    obtain ⟨c', is, m, hc', hrun⟩ := zsocketDoClose_run closes hd
    obtain rfl : c = c' := Except.ok.inj (hc.symm.trans hc')
    exact ⟨is ++ [.endClose], Machine.run_append hrun rfl⟩
  cases sel with
  | done rc₂ =>
      cases hp
      dsimp only at h
      by_cases hrc : rc₁ = -1
      · rw [if_pos hrc] at h
        cases h
        subst hrc
        refine ⟨[.loop timeout select], bind_eq_ok.mpr ⟨_, ?_, rfl⟩⟩
        exact bind_eq_ok.mpr ⟨_, hsel, rfl⟩
      · rw [if_neg hrc] at h
        obtain ⟨v', hd, h⟩ := bind_eq_ok.mp h
        cases h
        obtain ⟨c, -, -, hc, -⟩ := zsocketDoClose_run closes hd
        obtain ⟨is, hrun⟩ := finish hd hc
        refine ⟨.loop timeout select :: is, bind_eq_ok.mpr ⟨c, ?_, hrun⟩⟩
        refine bind_eq_ok.mpr ⟨_, hsel, ?_⟩
        dsimp only
        rw [if_neg hrc]
        exact hc
  | ready fdsRead fdsWrite left =>
      obtain ⟨v, hv, hp⟩ := bind_eq_ok.mp hp
      cases hp
      dsimp only at h
      rw [if_neg (by decide)] at h
      obtain ⟨v', hd, h⟩ := bind_eq_ok.mp h
      cases h
      obtain ⟨c, -, -, hc, -⟩ := zsocketDoClose_run closes hd
      obtain ⟨is, hrun⟩ := finish hd hc
      obtain ⟨js, hpoll⟩ := pollFrom_run fdsRead fdsWrite visits _ hv hc
      refine ⟨.loop timeout select :: (js ++ is),
        bind_eq_ok.mpr ⟨_, ?_, Machine.run_append hpoll hrun⟩⟩
      exact bind_eq_ok.mpr ⟨_, hsel, rfl⟩

end LibZio
