import LibZio.Zsocket.Runs

/-! # The mode after a loop

`in_looping` decides whether a close is carried out at once or left to the next pass. `zsocket_loop`
sets it on entry and clears it at the end, but not where it returns because its `select` has failed:
from there on every close outside the loop is only marked, until some later call of the loop ends
well. -/

namespace LibZio

variable {w : World}

/-- Between two calls `in_looping` is clear, and a close made there is carried out before it
returns: the socket is off the list, and its descriptor is closed. -/
def Sys.LeavesMode (c : Sys) (i : Input) (c' : Sys) : Prop :=
  (c'.ctl = .idle → c'.world.inLooping = false) ∧
    ∀ s cb z, c.ctl = .idle → i = .call (.close s cb) → c.world.mem s = .live z →
      s ∉ c'.world.socks ∧ z.fd ∉ c'.world.openFds

/-- Whether the `select` of a call of `zsocket_loop` does not fail, other than by an
interruption. -/
def Sys.selects (c : Sys) (i : Input) : Bool :=
  match c.ctl, i with
  | .idle, .loop _ .failed => false
  | _, _ => true

/-- Outside the loop `in_looping` is clear. -/
structure Sys.ModeClear (c : Sys) : Prop where
  sound : c.Sound
  mode : c.ctl = .idle → c.world.inLooping = false

/-- A loop whose `select` fails returns with the mode set. -/
theorem Sys.step_failed {c c' : Sys} {i : Input} (hi : c.selects i = false)
    (h : c.step i = .ok c') : c'.ctl = .idle ∧ c'.world.inLooping = true := by
  unfold Sys.selects at hi
  split at hi
  · next hctl =>
    obtain ⟨ctl, w⟩ := c
    dsimp only at hctl
    subst hctl
    cases h
    exact ⟨rfl, rfl⟩
  · cases hi

/-- A loop whose `select` does not fail goes on. -/
theorem Sys.step_loop_selects {c' : Sys} {timeout : ℤ} {select : SelectIo}
    (hsel : Sys.selects ⟨.idle, w⟩ (.loop timeout select) = true)
    (h : Sys.step ⟨.idle, w⟩ (.loop timeout select) = .ok c') : c'.ctl ≠ .idle := by
  have started : ∀ {v : World}, startClose v = .ok c' → c'.ctl ≠ .idle := by
    intro v hv
    obtain ⟨n, -, hc⟩ := bind_eq_ok.mp hv
    cases hc
    exact nofun
  obtain ⟨⟨sel, v⟩, hpoll, h⟩ := bind_eq_ok.mp h
  unfold pollSelect at hpoll
  generalize (if w.nfdsRead > w.nfdsWrite then w.nfdsRead else w.nfdsWrite) = nfds at hpoll
  cases select with
  | failed => cases hsel
  | timeout | interrupted => cases hpoll; exact started h
  | ready R W =>
      dsimp only at hpoll
      by_cases hok : R ⊆ w.fdsRead.filter (· < nfds) ∧ W ⊆ w.fdsWrite.filter (· < nfds) ∧
          0 < R.card + W.card
      · rw [if_pos (by exact hok)] at hpoll
        cases hpoll
        cases h
        exact nofun
      · rw [if_neg (by exact hok)] at hpoll
        cases hpoll

/-- **A step whose `select` does not fail leaves the mode clear**, and its close is carried out. -/
theorem Sys.ModeClear.step {c c' : Sys} {i : Input} (hc : c.ModeClear) (hi : c.selects i = true)
    (h : c.step i = .ok c') : c'.ModeClear ∧ c.LeavesMode i c' := by
  obtain ⟨hsound, hmode⟩ := hc
  have hsound' := (Sys.step_moves hsound h).2
  suffices hlaw : c.LeavesMode i c' from ⟨⟨hsound', hlaw.1⟩, hlaw⟩
  have busy : c'.ctl ≠ .idle → (∀ x, i ≠ .call x) → c.LeavesMode i c' := fun hctl hcall =>
    ⟨fun hc => absurd hc hctl, fun s cb z _ hi => absurd hi (hcall _)⟩
  obtain ⟨hw, hp⟩ := hsound
  cases Sys.step_ways h with
  | @call w w' x run =>
      have hl : w.inLooping = false := hmode rfl
      refine ⟨fun _ => ((Api.run_moves x hw run).inLooping_eq (x.not_may_mode _)).trans hl, ?_⟩
      rintro s cb z - ⟨⟩ hz
      obtain ⟨z', hz', hn, he, hfd, -, rfl⟩ := (zsocketClose_immediate hw hl).mp run
      obtain rfl : z = z' := Slot.live.inj (hz.symm.trans hz')
      exact ⟨hw.nodup.not_mem_erase, Finset.notMem_erase _ _⟩
  | failed | quiet | ready => exact busy (Sys.step_loop_selects hi h) (fun _ => nofun)
  | visit | lastVisit | endPoll | closeVisit => exact busy nofun (fun _ => nofun)
  | endClose => exact ⟨fun _ => rfl, fun _ _ _ hctl => nomatch hctl⟩

/-- **When the loop leaves the mode as it found it.** In every run the mode is clear between the
calls, and every close made there is carried out before it returns, exactly when the `select` of no
call of `zsocket_loop` fails. -/
theorem loop_leaves_mode (is : List Input) :
    zio.Throughout Sys.LeavesMode is zio.init ↔
      zio.Meets (fun c i => c.selects i = true) is zio.init := by
  refine Machine.throughout_iff_meets (I := Sys.ModeClear) (fun c i c' hc h => ?_)
    (fun c i c' hc hi h => (hc.step hi h).1) (fun c i _ hi => ?_)
    ⟨⟨World.WF.initial, by exact trivial⟩, ?_⟩
  · refine ⟨fun hlaw => ?_, fun hi => (hc.step hi h).2⟩
    by_contra hi
    obtain ⟨hidle, hl⟩ := Sys.step_failed (eq_false_of_ne_true hi) h
    rw [hlaw.1 hidle] at hl
    cases hl
  · unfold Sys.selects at hi
    split at hi
    · next hctl =>
      obtain ⟨ctl, w⟩ := c
      dsimp only at hctl
      subst hctl
      exact ⟨_, rfl⟩
    · exact absurd rfl hi
  · exact fun _ => rfl

/-- A client is connected with descriptor `3`, a call of `zsocket_loop` with the timeout `-1` fails,
and the client is closed. -/
def closeAfterFailure : List Input :=
  [.call (.init 0),
    .call (.connect 0 ⟨7, 8000⟩ none ⟨some 3, true, ⟨0, 9000⟩, 0⟩),
    .loop (-1) .failed,
    .call (.close 0 none)]

/-- After the failure the mode stays set, and the client that is closed stays listed, with its
descriptor open. -/
theorem loop_failure_keeps_mode : ∃ c : Sys, zio.run closeAfterFailure zio.init = .ok c ∧
    c.ctl = .idle ∧ c.world.inLooping = true ∧ 0 ∈ c.world.socks ∧ (3 : ℤ) ∈ c.world.openFds ∧
    ¬ zio.Throughout Sys.LeavesMode closeAfterFailure zio.init := by
  have hrun : (match zio.run closeAfterFailure zio.init with
      | .ok c => c.isIdle && c.world.inLooping &&
          decide (0 ∈ c.world.socks ∧ (3 : ℤ) ∈ c.world.openFds)
      | .error _ => false) = true := by decide +kernel
  split at hrun
  · next c h =>
    simp only [Bool.and_eq_true, decide_eq_true_eq] at hrun
    obtain ⟨⟨hidle, hl⟩, hlisted, hopen⟩ := hrun
    refine ⟨c, h, Sys.isIdle_iff.mp hidle, hl, hlisted, hopen, fun all => ?_⟩
    have hlast := all.keeps (D := fun c => c.ctl = .idle → c.world.inLooping = false)
      (fun _ _ _ _ hlaw _ => hlaw.1) (fun _ => rfl) h (Sys.isIdle_iff.mp hidle)
    rw [hl] at hlast
    cases hlast
  · cases hrun

end LibZio
