import LibZio.Zsocket.Steps

/-! # The pass of the deferred closes on record

`zsocket_do_close` with a record of what each of its iterations found and did, which is otherwise
the pass itself (`zsocketDoCloseRecord_snd`), and the rule for the pass: an invariant over the
sockets passed, those still ahead and the record so far. All that the traversal needs is that the
sockets on the list are distinct, live and linked, and that the library is looping. -/

namespace LibZio

/-! ## The pass on record -/

/-- `doCloseFrom`, with the record of its iterations. -/
def doCloseFromRecord (io : Sid → CloseIo) :
    ℕ → Option Sid → Option Sid → World → Res (List CloseVisit × World)
  | _, none, _, w => .ok ([], w)
  | 0, some _, _, _ => .error .fuel
  | fuel + 1, some pos, n, w => do
      let (visit, w) ← doCloseVisitRecord pos (io pos) w
      let next ← w.listNextSafe n
      let (visits, w) ← doCloseFromRecord io fuel n next w
      return (visit :: visits, w)

/-- `zsocketDoClose`, with the record of its iterations. -/
def zsocketDoCloseRecord (io : Sid → CloseIo) (w : World) : Res (List CloseVisit × World) := do
  let n ← w.listNextSafe w.listFirst
  doCloseFromRecord io w.socks.length w.listFirst n w

variable {w w' v v' : World} {s t pos : Sid} {z : ZSocket} {io : Sid → CloseIo}

/-- The record does not change the traversal. -/
theorem doCloseFromRecord_snd (io : Sid → CloseIo) (fuel : ℕ) (pos n : Option Sid) (w : World) :
    Prod.snd <$> doCloseFromRecord io fuel pos n w = doCloseFrom io fuel pos n w := by
  induction fuel generalizing pos n w with
  | zero => cases pos <;> rfl
  | succ fuel ih =>
      cases pos with
      | none => rfl
      | some pos =>
          rw [doCloseFromRecord, doCloseFrom, ← doCloseVisitRecord_snd, map_bind, bind_map_left]
          refine bind_congr fun r => ?_
          dsimp only
          rw [map_bind]
          refine bind_congr fun next => ?_
          rw [← ih, map_bind, map_eq_pure_bind]
          rfl

/-- The record does not change the pass. -/
theorem zsocketDoCloseRecord_snd (io : Sid → CloseIo) (w : World) :
    Prod.snd <$> zsocketDoCloseRecord io w = zsocketDoClose io w := by
  rw [zsocketDoCloseRecord, zsocketDoClose, map_bind]
  exact bind_congr fun n => doCloseFromRecord_snd io _ _ n w

/-- A pass that returns has a record. -/
theorem zsocketDoCloseRecord_of (h : zsocketDoClose io w = .ok w') :
    ∃ visits, zsocketDoCloseRecord io w = .ok (visits, w') := by
  obtain ⟨⟨visits, v⟩, hrecord, rfl⟩ := map_eq_ok.mp ((zsocketDoCloseRecord_snd io w).trans h)
  exact ⟨visits, hrecord⟩

/-- A pass on record is a pass. -/
theorem zsocketDoClose_of {visits : List CloseVisit}
    (h : zsocketDoCloseRecord io w = .ok (visits, w')) : zsocketDoClose io w = .ok w' :=
  (zsocketDoCloseRecord_snd io w).symm.trans (map_eq_ok.mpr ⟨_, h, rfl⟩)

/-! ## The rule for a pass -/

/-- The saved successor of the part of the list that is still ahead. -/
theorem World.Roster.listNextSafe {p l : List Sid} (hw : w.Roster) (hs : w.socks = p ++ l) :
    ∃ n, w.listNextSafe l.head? = .ok n ∧ (l ≠ [] → n = l.tail.head?) := by
  cases l with
  | nil => exact ⟨_, rfl, fun hc => absurd rfl hc⟩
  | cons a l => exact ⟨_, hw.listNext hs, fun _ => rfl⟩

/-- **The rule for a pass.** An invariant indexed by the sockets passed, those still ahead and the
iterations so far, which every iteration takes over the socket it visits, holds at the end; and
where no iteration has a failure outside `P`, neither has the pass. -/
theorem zsocketDoCloseRecord_rule {I : List Sid → List Sid → List CloseVisit → World → Prop}
    {P : Fault → Prop} (hw : w.Roster) (hl : w.inLooping = true) (start : I [] w.socks [] w)
    (visit : ∀ p pos l visits v p', v.Roster → v.inLooping = true → w.socks = p ++ pos :: l →
      v.socks = p' ++ pos :: l → I p (pos :: l) visits v →
      FailsIn P (doCloseVisitRecord pos (io pos) v) ∧
        ∀ r v', doCloseVisitRecord pos (io pos) v = .ok (r, v') →
          I (p ++ [pos]) l (visits ++ [r]) v') :
    FailsIn P (zsocketDoCloseRecord io w) ∧
      ∀ visits w', zsocketDoCloseRecord io w = .ok (visits, w') →
        w'.Roster ∧ w'.inLooping = true ∧ I w.socks [] visits w' := by
  -- over the sockets still ahead, with those passed in `p` and what is left of them in `p'`
  have go : ∀ (l p p' : List Sid) (done : List CloseVisit) (fuel : ℕ) (n : Option Sid) (v : World),
      v.Roster → v.inLooping = true → w.socks = p ++ l → v.socks = p' ++ l →
      (l ≠ [] → n = l.tail.head?) → l.length ≤ fuel → I p l done v →
      FailsIn P (doCloseFromRecord io fuel l.head? n v) ∧
        ∀ visits w', doCloseFromRecord io fuel l.head? n v = .ok (visits, w') →
          w'.Roster ∧ w'.inLooping = true ∧ I w.socks [] (done ++ visits) w' := by
    intro l
    induction l with
    | nil =>
        intro p p' done fuel n v hv hvl hsp _ _ _ hI
        have hend : doCloseFromRecord io fuel none n v = .ok ([], v) := by cases fuel <;> rfl
        rw [List.append_nil] at hsp
        rw [List.head?_nil, hend]
        refine ⟨.ok _, fun visits w' h => ?_⟩
        cases h
        rw [List.append_nil]
        exact ⟨hv, hvl, hsp ▸ hI⟩
    | cons pos l ih =>
        intro p p' done fuel n v hv hvl hsp hs hn hf hI
        cases fuel with
        | zero => cases hf
        | succ fuel =>
            obtain ⟨hfails, hkeeps⟩ := visit p pos l done v p' hv hvl hsp hs hI
            obtain rfl : n = l.head? := hn (by simp)
            -- what is ahead after an iteration that returns
            have ahead : ∀ r v', doCloseVisitRecord pos (io pos) v = .ok (r, v') →
                ∃ n', v'.listNextSafe l.head? = .ok n' ∧
                  FailsIn P (doCloseFromRecord io fuel l.head? n' v') ∧
                  ∀ visits w', doCloseFromRecord io fuel l.head? n' v' = .ok (visits, w') →
                    w'.Roster ∧ w'.inLooping = true ∧ I w.socks [] (done ++ [r] ++ visits) w' := by
              intro r v' hvisit
              obtain ⟨hv', hvl', p'', hs'⟩ := doCloseVisitRecord_frame hv hvl hs hvisit
              obtain ⟨n', hn', htail⟩ := hv'.listNextSafe hs'
              exact ⟨n', hn', ih (p ++ [pos]) p'' (done ++ [r]) fuel n' v' hv' hvl'
                (by rw [hsp, List.append_assoc]; rfl) hs' htail (Nat.le_of_succ_le_succ hf)
                (hkeeps r v' hvisit)⟩
            rw [List.head?_cons, doCloseFromRecord]
            constructor
            · refine hfails.bind fun rv hvisit => ?_
              obtain ⟨r, v'⟩ := rv
              obtain ⟨n', hn', hrest, -⟩ := ahead r v' hvisit
              dsimp only
              rw [hn', ok_bind]
              exact hrest.bind fun _ _ => .ok _
            · intro visits w' h
              obtain ⟨⟨r, v'⟩, hvisit, h⟩ := bind_eq_ok.mp h
              obtain ⟨n', hn', -, hrest⟩ := ahead r v' hvisit
              dsimp only at h
              rw [hn', ok_bind] at h
              obtain ⟨⟨rest, u⟩, hrun, h⟩ := bind_eq_ok.mp h
              cases h
              obtain ⟨hu, hul, hI'⟩ := hrest rest u hrun
              exact ⟨hu, hul, by rw [List.append_assoc] at hI'; exact hI'⟩
  obtain ⟨n, hn, htail⟩ : ∃ n, w.listNextSafe w.listFirst = .ok n ∧
      (w.socks ≠ [] → n = w.socks.tail.head?) := hw.listNextSafe (p := []) rfl
  rw [zsocketDoCloseRecord, hn, ok_bind]
  exact go w.socks [] [] [] _ n w hw hl rfl rfl htail le_rfl start

end LibZio
