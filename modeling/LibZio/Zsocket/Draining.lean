import LibZio.Zsocket.DeferredClose
import LibZio.Zsocket.ClosePass

/-! # Draining the deferred closes

Rules for a whole pass of `zsocket_do_close` and for passes until nothing is EOF. In a pass the list
splits into a part that was passed and a part that is untouched, so an invariant is indexed by the
two parts (`zsocketDoClose_rule`); the same invariant shows that a pass returns when its visits do
(`zsocketDoClose_total`). -/

namespace LibZio

variable {w w' v v' : World} {s t pos : Sid} {z : ZSocket} {io : Sid → CloseIo}

/-! ## One visit -/

/-- `z'` is `z`, or `z` once it is closed. -/
def ZSocket.Flagged (z z' : ZSocket) : Prop := z' = z ∨ z.eof = false ∧ ∃ cb, z' = z.closed cb

theorem ZSocket.Flagged.eof {z z' : ZSocket} (h : z.Flagged z') (he : z.eof = true) : z' = z := by
  obtain rfl | ⟨he', -⟩ := h
  · rfl
  · rw [he] at he'; cases he'

theorem ZSocket.Flagged.trans {x y z : ZSocket} (h : x.Flagged y) (h' : y.Flagged z) :
    x.Flagged z := by
  obtain rfl | ⟨he, cb, rfl⟩ := h
  · exact h'
  · rw [h'.eof (ZSocket.closed_eof _ _)]
    exact .inr ⟨he, cb, rfl⟩

/-- A flagged socket keeps its place and everything that is not about closing. -/
theorem ZSocket.Flagged.same {z z' : ZSocket} (h : z.Flagged z') :
    z'.node = z.node ∧ z'.fd = z.fd ∧ z'.type = z.type ∧ z'.laddr = z.laddr ∧
      ∀ now, z'.stale now = z.stale now := by
  obtain rfl | ⟨-, cb, rfl⟩ := h <;> exact ⟨rfl, rfl, rfl, rfl, fun _ => rfl⟩

/-- A freed object stays freed. -/
theorem Move.freed {a : Act} (m : Move a w w') (h : w.mem s = .freed) : w'.mem s = .freed := by
  by_cases hs : a.socket = some s
  · cases m <;> simp only [Act.socket, Option.some.injEq, reduceCtorEq] at hs <;> subst hs <;>
      simp_all
  · exact (m.mem_of_ne hs).trans h

/-- A freed object stays freed. -/
theorem Moves.freed {P : Act → Prop} (m : Moves P w w') (h : w.mem s = .freed) :
    w'.mem s = .freed := by
  induction m with
  | refl => exact h
  | tail _ hm ih =>
      obtain ⟨a, -, hm⟩ := hm
      exact hm.freed ih

/-! ## One pass -/

/-- What a visit leaves of the list: the untouched part behind the cursor stays. -/
theorem doCloseVisit_split {cio : CloseIo} {p l : List Sid} (hw : v.WF) (hl : v.inLooping = true)
    (hs : v.socks = p ++ pos :: l) (h : doCloseVisit pos cio v = .ok v') :
    v'.WF ∧ v'.inLooping = true ∧ ∃ p', v'.socks = p' ++ l := by
  have hpos : pos ∈ v.socks := by rw [hs]; simp
  obtain ⟨z, hz, hn⟩ := hw.live_of_mem hpos
  have hm := doCloseVisit_moves hw hl hz hn h
  refine ⟨hm.wf hw, (hm.inLooping_eq not_closeVisitMay_mode).trans hl, ?_⟩
  obtain ⟨rfl, -⟩ | herase := doCloseVisit_socks hw hl hz hn h
  · exact ⟨p ++ [pos], by rw [hs, List.append_assoc]; rfl⟩
  · exact ⟨p, by rw [herase, (hw.split hs).2]⟩

/-- **The rule for a pass that returns.** An invariant indexed by the sockets passed and those still
untouched, which every visit takes from one to the other, holds at the end. -/
theorem zsocketDoClose_rule {I : List Sid → List Sid → World → Prop} (hw : w.WF)
    (hl : w.inLooping = true) (start : I [] w.socks w)
    (visit : ∀ p pos l v v' p', v.WF → v.inLooping = true → w.socks = p ++ pos :: l →
      v.socks = p' ++ pos :: l → I p (pos :: l) v → doCloseVisit pos (io pos) v = .ok v' →
      I (p ++ [pos]) l v')
    (h : zsocketDoClose io w = .ok w') : w'.WF ∧ w'.inLooping = true ∧ I w.socks [] w' := by
  obtain ⟨visits, hrecord⟩ := zsocketDoCloseRecord_of h
  obtain ⟨-, hl', hw', hI⟩ := (zsocketDoCloseRecord_rule (I := fun p l _ v => v.WF ∧ I p l v)
    (P := fun _ => True) hw.roster hl ⟨hw, start⟩ fun p pos l _ v p' _ hvl hsp hs hI => by
      refine ⟨fun _ _ => trivial, fun r v' hvisit => ?_⟩
      have hrun := doCloseVisit_of hvisit
      exact ⟨(doCloseVisit_split hI.1 hvl hs hrun).1,
        visit p pos l v v' p' hI.1 hvl hsp hs hI.2 hrun⟩
    ).2 visits w' hrecord
  exact ⟨hw', hl', hI⟩

/-- **The rule by which a pass returns.** If the invariant lets every visit return, and the visits
keep it, the pass returns. -/
theorem zsocketDoClose_total {I : List Sid → List Sid → World → Prop} (hw : w.WF)
    (hl : w.inLooping = true) (start : I [] w.socks w)
    (visit : ∀ p pos l v p', v.WF → v.inLooping = true → w.socks = p ++ pos :: l →
      v.socks = p' ++ pos :: l → I p (pos :: l) v →
      ∃ v', doCloseVisit pos (io pos) v = .ok v' ∧ I (p ++ [pos]) l v') :
    ∃ w', zsocketDoClose io w = .ok w' ∧ w'.WF ∧ w'.inLooping = true ∧ I w.socks [] w' := by
  obtain ⟨hfails, hends⟩ := zsocketDoCloseRecord_rule (I := fun p l _ v => v.WF ∧ I p l v)
    (P := fun _ => False) hw.roster hl ⟨hw, start⟩ fun p pos l _ v p' _ hvl hsp hs hI => by
      obtain ⟨u, hrun, hI'⟩ := visit p pos l v p' hI.1 hvl hsp hs hI.2
      obtain ⟨r, hrecord⟩ := doCloseVisitRecord_of hrun
      refine ⟨fun e he => ?_, fun r' v' hvisit => ?_⟩
      · rw [hrecord] at he; cases he
      · obtain rfl : u = v' := Except.ok.inj (hrun.symm.trans (doCloseVisit_of hvisit))
        exact ⟨(doCloseVisit_split hI.1 hvl hs hrun).1, hI'⟩
  obtain ⟨⟨visits, w'⟩, hrecord⟩ := hfails.returns
  obtain ⟨-, hl', hw', hI⟩ := hends visits w' hrecord
  exact ⟨w', zsocketDoClose_of hrecord, hw', hl', hI⟩

/-- A pass keeps a world well formed and looping. -/
theorem zsocketDoClose_keeps (hw : w.WF) (hl : w.inLooping = true)
    (h : zsocketDoClose io w = .ok w') : w'.WF ∧ w'.inLooping = true := by
  obtain ⟨hw', hl', -⟩ := zsocketDoClose_rule (I := fun _ _ _ => True) hw hl trivial
    (fun _ _ _ _ _ _ _ _ _ _ _ _ => trivial) h
  exact ⟨hw', hl'⟩

/-! ## Passes until nothing is EOF -/

/-- Passes of `zsocket_do_close` until no listed socket is EOF, where `passes n` is what the pass
`n` is answered. -/
inductive Drained : (ℕ → Sid → CloseIo) → World → World → Prop
  | done {passes : ℕ → Sid → CloseIo} {w : World} (open_ : w.OpenAll w.socks) : Drained passes w w
  | pass {passes : ℕ → Sid → CloseIo} {w v w' : World} (pending : ¬ w.OpenAll w.socks)
      (run : zsocketDoClose (passes 0) w = .ok v) (rest : Drained (fun n => passes (n + 1)) v w') :
      Drained passes w w'

/-- A pass makes moves. -/
theorem zsocketDoClose_moves (hw : w.WF) (hl : w.inLooping = true)
    (h : zsocketDoClose io w = .ok w') : Moves (fun _ => True) w w' := by
  refine (zsocketDoClose_rule (I := fun _ _ v => Moves (fun _ => True) w v) hw hl .none ?_ h).2.2
  intro p pos l v v' p' hv hvl _ hs hI hvisit
  obtain ⟨z, hz, hn⟩ := hv.live_of_mem (s := pos) (by rw [hs]; simp)
  exact hI.append ((doCloseVisit_moves hv hvl hz hn hvisit).mono fun _ _ => trivial)

/-- **What every pass preserves holds once the closes are drained.** -/
theorem Drained.invariant {passes : ℕ → Sid → CloseIo} {I : World → Prop}
    (pass : ∀ io v v', v.WF → v.inLooping = true → I v → zsocketDoClose io v = .ok v' → I v')
    (h : Drained passes w w') (hw : w.WF) (hl : w.inLooping = true) (start : I w) :
    w'.WF ∧ w'.inLooping = true ∧ I w' ∧ w'.OpenAll w'.socks := by
  induction h with
  | done hopen => exact ⟨hw, hl, start, hopen⟩
  | pass _ run _ ih =>
      obtain ⟨hv, hvl⟩ := zsocketDoClose_keeps hw hl run
      exact ih hv hvl (pass _ _ _ hw hl start run)

/-- A closed socket is off the list once the closes are drained. -/
theorem Drained.still_over {passes : ℕ → Sid → CloseIo} (h : Drained passes w w') (hw : w.WF)
    (hl : w.inLooping = true) (hs : w.Over s) : s ∉ w'.socks := by
  obtain ⟨hw', -, hover, hopen⟩ := h.invariant (I := fun v => v.Over s)
    (fun _ _ _ hv hvl hI hrun => (zsocketDoClose_moves hv hvl hrun).still_over hI) hw hl hs
  intro hc
  obtain ⟨z, hz, -⟩ := hw'.live_of_mem hc
  obtain hfreed | ⟨y, hy, he⟩ := hover
  · rw [hz] at hfreed; cases hfreed
  · rw [hopen s hc y hy] at he
    cases he

end LibZio
