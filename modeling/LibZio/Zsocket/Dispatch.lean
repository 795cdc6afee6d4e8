import LibZio.Foundation.Countdown
import LibZio.Zsocket.Runs

/-! # The dispatch of the poll

The traversal of `zsocket_poll` with the handlers it calls on record (`pollFromCalls`), which is
otherwise the traversal itself (`zsocketPollCalls_snd`). The list grows at its head and no socket
leaves it while the traversal is under way, so the rest of the list behind the cursor stays as it
was when `select` returned, and so do the descriptors of the sockets on it; the remaining count
bounds the number of ready sockets behind the cursor, so that the early exit leaves out none
(`poll_dispatches`). The traversal by itself always comes to its end: where a poll fails, an
iteration does (`zsocketPoll_fails`). -/

namespace LibZio

/-! ## The traversal on record -/

/-- The two handlers. -/
inductive Handler
  /-- `zsocket_handle_recv`. -/
  | recv
  /-- `zsocket_handle_send`. -/
  | send
  deriving DecidableEq, Repr

/-- A socket that was visited, and the handlers called for it, in order. -/
abbrev Visited : Type := Sid × List Handler

/-- `pollVisit`, with the handlers it calls. -/
def pollVisitCalls (fdsRead fdsWrite : Finset ℤ) (pos : Sid) (io : VisitIo) (w : World) :
    Res (List Handler × Bool × World) := do
  let z ← w.deref pos
  let readable ← World.fdIsset z.fd fdsRead
  let (received, w) ←
    (if readable then Prod.mk [.recv] <$> zsocketHandleRecv pos io.recv w else .ok ([], w) :
      Res (List Handler × World))
  let z ← w.deref pos
  let writable ← World.fdIsset z.fd fdsWrite
  let (sent, w) ←
    (if writable then Prod.mk [.send] <$> zsocketHandleSend pos io.send w else .ok ([], w) :
      Res (List Handler × World))
  return (received ++ sent, readable || writable, w)

/-- `pollFrom`, with the sockets it visits. -/
def pollFromCalls (fdsRead fdsWrite : Finset ℤ) (io : Sid → VisitIo) :
    ℕ → Option Sid → ℤ → World → Res (List Visited × World)
  | _, none, _, w => .ok ([], w)
  | 0, some _, _, _ => .error .fuel
  | fuel + 1, some pos, nfdsSelected, w => do
      let (calls, handled, w) ← pollVisitCalls fdsRead fdsWrite pos (io pos) w
      let nfdsSelected := if handled then nfdsSelected - 1 else nfdsSelected
      if handled && nfdsSelected = 0 then return ([(pos, calls)], w)
      else
        let next ← w.listNext pos
        let (visits, w) ← pollFromCalls fdsRead fdsWrite io fuel next nfdsSelected w
        return ((pos, calls) :: visits, w)

/-- `zsocketPoll`, with the sockets it visits. -/
def zsocketPollCalls (timeout : ℤ) (select : SelectIo) (io : Sid → VisitIo) (w : World) :
    Res (List Visited × World) := do
  match ← pollSelect timeout select w with
  | (.done _, w) => return ([], w)
  | (.ready fdsRead fdsWrite nfdsSelected, w) =>
      pollFromCalls fdsRead fdsWrite io w.socks.length w.listFirst nfdsSelected w

variable {R W : Finset ℤ} {pos s : Sid} {io : Sid → VisitIo} {w w' v v' : World} {z : ZSocket}

/-- The record does not change a visit. -/
theorem pollVisitCalls_snd (R W : Finset ℤ) (pos : Sid) (io : VisitIo) (w : World) :
    Prod.snd <$> pollVisitCalls R W pos io w = pollVisit R W pos io w := by
  have record : ∀ (b : Bool) (h : Handler) (x : Res World) (w : World) {β : Type}
      (f : List Handler × World → Res β) (g : World → Res β), (∀ l v, f (l, v) = g v) →
      ((if b then Prod.mk [h] <$> x else .ok ([], w) : Res (List Handler × World)) >>= f) =
        (if b then x else .ok w : Res World) >>= g := by
    intro b h x w β f g same
    cases b with
    | false => exact same [] w
    | true => cases x with
      | error e => rfl
      | ok v => exact same [h] v
  rw [pollVisitCalls, pollVisit]
  simp only [map_bind]
  apply bind_congr
  intro z
  apply bind_congr
  intro readable
  refine record _ _ _ _ _ _ fun received v => ?_
  apply bind_congr
  intro y
  apply bind_congr
  intro writable
  exact record _ _ _ _ _ _ fun sent u => rfl

/-- The record does not change the traversal. -/
theorem pollFromCalls_snd (R W : Finset ℤ) (io : Sid → VisitIo) (fuel : ℕ) (pos : Option Sid)
    (left : ℤ) (w : World) :
    Prod.snd <$> pollFromCalls R W io fuel pos left w = pollFrom R W io fuel pos left w := by
  induction fuel generalizing pos left w with
  | zero => cases pos <;> rfl
  | succ fuel ih =>
      cases pos with
      | none => rfl
      | some pos =>
          rw [pollFromCalls, pollFrom, ← pollVisitCalls_snd, map_bind, bind_map_left]
          apply bind_congr
          rintro ⟨calls, handled, v⟩
          dsimp only
          generalize (if handled then left - 1 else left) = left'
          by_cases hbreak : (handled && decide (left' = 0)) = true
          · rw [if_pos hbreak, if_pos hbreak]
            rfl
          · rw [if_neg hbreak, if_neg hbreak, map_bind]
            apply bind_congr
            intro next
            rw [← ih, map_bind, map_eq_pure_bind]
            rfl

/-- The record does not change `zsocket_poll`. -/
theorem zsocketPollCalls_snd (timeout : ℤ) (select : SelectIo) (io : Sid → VisitIo) (w : World) :
    Prod.snd <$> zsocketPollCalls timeout select io w =
      Prod.snd <$> zsocketPoll timeout select io w := by
  rw [zsocketPollCalls, zsocketPoll, map_bind, map_bind]
  apply bind_congr
  rintro ⟨selected, v⟩
  cases selected with
  | done rc => rfl
  | ready R W left =>
      dsimp only
      rw [pollFromCalls_snd, map_bind]
      exact (bind_pure _).symm

/-- What `select` reports is what the traversal works with. -/
theorem pollSelect_ready {timeout : ℤ} {selected : Selected}
    (h : pollSelect timeout (.ready R W) w = .ok (selected, w')) :
    ∃ nfds sec usec, selected = .ready R W (R.card + W.card) ∧
      w' = w.log (.select nfds sec usec) := by
  unfold pollSelect at h
  generalize (if w.nfdsRead > w.nfdsWrite then w.nfdsRead else w.nfdsWrite) = nfds at h
  dsimp only at h
  split at h
  · cases h
    exact ⟨_, _, _, rfl, rfl⟩
  · cases h

/-! ## What is due -/

namespace World

/-- The descriptor of a socket. -/
def fdOf (w : World) (s : Sid) : ℤ :=
  match w.mem s with
  | .live z => z.fd
  | _ => -1

/-- The handlers that are due for a socket, where `R` and `W` are ready: receive first. -/
def due (w : World) (R W : Finset ℤ) (s : Sid) : List Handler :=
  (if w.fdOf s ∈ R then [.recv] else []) ++ (if w.fdOf s ∈ W then [.send] else [])

/-- Whether a handler is due for a socket. -/
def busy (w : World) (R W : Finset ℤ) (s : Sid) : Bool :=
  decide (w.fdOf s ∈ R) || decide (w.fdOf s ∈ W)

/-- The descriptor of a live socket. -/
theorem fdOf_eq (hz : w.mem s = .live z) : w.fdOf s = z.fd := by rw [fdOf, hz]

/-- What is due depends on the descriptor. -/
theorem due_congr (h : v.fdOf s = w.fdOf s) : v.due R W s = w.due R W s := by rw [due, due, h]

/-- Whether something is due depends on the descriptor. -/
theorem busy_congr (h : v.fdOf s = w.fdOf s) : v.busy R W s = w.busy R W s := by
  rw [busy, busy, h]

/-- The receive handler is due for what is readable. -/
theorem recv_mem_due : Handler.recv ∈ w.due R W s ↔ w.fdOf s ∈ R := by
  rw [due, List.mem_append]
  by_cases hr : w.fdOf s ∈ R <;> by_cases hw : w.fdOf s ∈ W <;> simp [hr, hw]

/-- The send handler is due for what is writable. -/
theorem send_mem_due : Handler.send ∈ w.due R W s ↔ w.fdOf s ∈ W := by
  rw [due, List.mem_append]
  by_cases hr : w.fdOf s ∈ R <;> by_cases hw : w.fdOf s ∈ W <;> simp [hr, hw]

/-- Each handler is due at most once, receive first. -/
theorem due_sublist (w : World) (R W : Finset ℤ) (s : Sid) :
    (w.due R W s).Sublist [.recv, .send] := by
  rw [due]
  by_cases hr : w.fdOf s ∈ R <;> by_cases hw : w.fdOf s ∈ W <;> simp [hr, hw]

/-- Nothing is due for a socket that is not busy. -/
theorem busy_of_mem_due {h : Handler} (hd : h ∈ w.due R W s) : w.busy R W s = true := by
  rw [busy, Bool.or_eq_true, decide_eq_true_eq, decide_eq_true_eq]
  cases h with
  | recv => exact .inl (recv_mem_due.mp hd)
  | send => exact .inr (send_mem_due.mp hd)

/-- Where the listed sockets have descriptors of their own, at most as many of them are busy as
descriptors are ready. -/
theorem WF.countP_busy (hw : w.WF) (R W : Finset ℤ) :
    w.socks.countP (w.busy R W) ≤ R.card + W.card := by
  have own : ∀ fds : Finset ℤ, ∀ s ∈ w.socks, ∀ t ∈ w.socks, w.fdOf s ∈ fds →
      w.fdOf s = w.fdOf t → s = t := by
    intro fds s hs t ht _ same
    obtain ⟨y, hy, hn⟩ := hw.live_of_mem hs
    obtain ⟨z, hz, -⟩ := hw.live_of_mem ht
    rw [fdOf_eq hy, fdOf_eq hz] at same
    exact hw.inj s t y z hy hz (hw.shape_linked hy hn).1 same
  have read := countP_mem_le_card w.fdOf R hw.nodup (own R)
  have write := countP_mem_le_card w.fdOf W hw.nodup (own W)
  have split : ∀ l : List Sid, l.countP (w.busy R W) ≤
      l.countP (fun s => decide (w.fdOf s ∈ R)) + l.countP (fun s => decide (w.fdOf s ∈ W)) := by
    intro l
    induction l with
    | nil => exact Nat.zero_le _
    | cons s l ih =>
        simp only [List.countP_cons, busy, Bool.or_eq_true]
        by_cases hr : decide (w.fdOf s ∈ R) = true <;>
          by_cases hw : decide (w.fdOf s ∈ W) = true <;>
          simp only [hr, hw, if_true, or_self, or_true, true_or] <;> omega
  exact (split w.socks).trans (Nat.add_le_add read write)

end World

/-! ## The traversal visits what is due -/

/-- A visit calls the handlers that are due, and says whether there are any. -/
theorem pollVisitCalls_due {io : VisitIo} {calls : List Handler} {handled : Bool} (hv : v.WF)
    (hl : v.inLooping = true) (hpos : pos ∈ v.socks)
    (h : pollVisitCalls R W pos io v = .ok (calls, handled, v')) :
    calls = v.due R W pos ∧ handled = v.busy R W pos := by
  obtain ⟨z, hz, hn⟩ := hv.live_of_mem hpos
  obtain ⟨x, hx, h⟩ := bind_eq_ok.mp h
  obtain rfl : z = x := Slot.live.inj (hz.symm.trans (World.deref_eq_ok.mp hx))
  obtain ⟨readable, hr, h⟩ := bind_eq_ok.mp h
  obtain ⟨-, rfl⟩ := fdIsset_eq_ok.mp hr
  obtain ⟨⟨received, u⟩, hu, h⟩ := bind_eq_ok.mp h
  obtain ⟨y, hy, h⟩ := bind_eq_ok.mp h
  obtain ⟨writable, hw, h⟩ := bind_eq_ok.mp h
  obtain ⟨-, rfl⟩ := fdIsset_eq_ok.mp hw
  obtain ⟨⟨sent, x⟩, hx, h⟩ := bind_eq_ok.mp h
  cases h
  -- the receive handler leaves the descriptor
  have first : received = (if v.fdOf pos ∈ R then [.recv] else []) ∧ y.fd = z.fd := by
    rw [World.fdOf_eq hz]
    by_cases hd : z.fd ∈ R
    · rw [if_pos (decide_eq_true hd)] at hu
      obtain ⟨u', hu', same⟩ := map_eq_ok.mp hu
      cases same
      obtain ⟨y', hy', stays, -⟩ := (zsocketHandleRecv_moves hv hl hz hu').stays hz hn
        not_recvMay_unlink
      obtain rfl : y' = y := Slot.live.inj (hy'.symm.trans (World.deref_eq_ok.mp hy))
      exact ⟨(if_pos hd).symm, stays.fd⟩
    · rw [if_neg fun hc => hd (of_decide_eq_true hc)] at hu
      cases hu
      obtain rfl : z = y := Slot.live.inj (hz.symm.trans (World.deref_eq_ok.mp hy))
      exact ⟨(if_neg hd).symm, rfl⟩
  have second : sent = if v.fdOf pos ∈ W then [.send] else [] := by
    rw [World.fdOf_eq hz, ← first.2]
    by_cases hd : y.fd ∈ W
    · rw [if_pos (decide_eq_true hd)] at hx
      obtain ⟨x', -, same⟩ := map_eq_ok.mp hx
      cases same
      exact (if_pos hd).symm
    · rw [if_neg fun hc => hd (of_decide_eq_true hc)] at hx
      cases hx
      exact (if_neg hd).symm
  constructor
  · rw [World.due, ← first.1, ← second]
  · rw [World.busy, World.fdOf_eq hz, first.2]

/-- A visit leaves the rest of the list behind the cursor, which the traversal goes on with, and the
descriptors of the sockets on it. -/
theorem pollVisit_behind {io : VisitIo} {handled : Bool} {m : List Sid} (hv : v.WF)
    (hl : v.inLooping = true) (suffix : pos :: m <:+ v.socks)
    (h : pollVisit R W pos io v = .ok (handled, v')) :
    v'.WF ∧ v'.inLooping = true ∧ m <:+ v'.socks ∧ v'.listNext pos = .ok m.head? ∧
      ∀ s ∈ m, v'.fdOf s = v.fdOf s := by
  obtain ⟨z, hz, hn⟩ := hv.live_of_mem (suffix.subset (List.mem_cons_self ..))
  have moves := pollVisit_moves hv hl hz h
  have hv' := moves.wf hv
  -- new sockets are added at the head, in front of the cursor
  obtain ⟨l, hs⟩ := suffix
  obtain ⟨l', hs'⟩ := moves.socks_append fun s => not_visitMay_unlink
  rw [← hs, ← List.append_assoc] at hs'
  refine ⟨hv', (moves.inLooping_eq not_visitMay_mode).trans hl, ⟨l' ++ l ++ [pos], ?_⟩,
    hv'.listNext hs', fun s hm => ?_⟩
  · rw [hs', List.append_assoc]
    rfl
  · obtain ⟨y, hy, hyn⟩ := hv.live_of_mem (s := s) (by rw [← hs]; simp [hm])
    obtain ⟨y', hy', stays, -⟩ := moves.stays hy hyn not_visitMay_unlink
    rw [World.fdOf_eq hy, World.fdOf_eq hy', stays.fd]

/-- **Only a visit can fail.** The traversal has enough fuel for the list behind the cursor and
finds every socket on it live and linked; where it fails, the iteration for one of them does. -/
theorem pollFrom_fails {fuel : ℕ} {cursor : Option Sid} {left : ℤ} {m : List Sid} {e : Fault}
    (hv : v.WF) (hl : v.inLooping = true) (suffix : m <:+ v.socks) (hcursor : cursor = m.head?)
    (room : m.length ≤ fuel) (h : pollFrom R W io fuel cursor left v = .error e) :
    ∃ pos ∈ m, ∃ u : World, u.WF ∧ u.inLooping = true ∧ pos ∈ u.socks ∧
      pollVisit R W pos (io pos) u = .error e := by
  induction m generalizing fuel cursor left v with
  | nil =>
      subst hcursor
      cases fuel <;> cases h
  | cons pos m ih =>
      subst hcursor
      cases fuel with
      | zero => exact absurd room (Nat.not_succ_le_zero _)
      | succ fuel =>
          rcases bind_eq_error.mp h with hvisit | ⟨⟨handled, u⟩, hu, h⟩
          · have hpos : pos ∈ v.socks := suffix.subset (List.mem_cons_self ..)
            exact ⟨pos, List.mem_cons_self .., v, hv, hl, hpos, hvisit⟩
          · obtain ⟨hw, hlu, hsuffix, hnext, -⟩ := pollVisit_behind hv hl suffix hu
            dsimp only at h
            generalize (if handled then left - 1 else left) = left' at h
            by_cases hbreak : (handled && decide (left' = 0)) = true
            · rw [if_pos hbreak] at h
              cases h
            · rw [if_neg hbreak, hnext, ok_bind] at h
              obtain ⟨s, hs, hfails⟩ := ih hw hlu hsuffix rfl (Nat.le_of_succ_le_succ room) h
              exact ⟨s, List.mem_cons_of_mem _ hs, hfails⟩

/-- A poll that fails is answered by `select` as it cannot be, or fails in a visit of a listed
socket. -/
theorem zsocketPoll_fails {timeout : ℤ} {select : SelectIo} {e : Fault} (hw : w.WF)
    (looping : w.inLooping = true) (h : zsocketPoll timeout select io w = .error e) :
    pollSelect timeout select w = .error e ∨ ∃ R W, ∃ pos ∈ w.socks, ∃ u : World, u.WF ∧
      u.inLooping = true ∧ pos ∈ u.socks ∧ pollVisit R W pos (io pos) u = .error e := by
  rcases bind_eq_error.mp h with hselect | ⟨⟨selected, v⟩, hselect, h⟩
  · exact .inl hselect
  · obtain ⟨⟨nfds, sec, usec, rfl⟩, -⟩ := pollSelect_cases hselect
    cases selected with
    | done rc => cases h
    | ready R W left =>
        have hfrom := (bind_eq_error.mp h).resolve_right fun ⟨_, _, hreturn⟩ => nomatch hreturn
        have hlog : (w.log (.select nfds sec usec)).WF := hw.congr rfl rfl rfl rfl rfl rfl
        exact .inr ⟨R, W, pollFrom_fails hlog looping (List.suffix_refl w.socks) rfl le_rfl hfrom⟩

/-- **The traversal visits what the countdown lets it**, with the handlers that were due when
`select` returned. -/
theorem pollFromCalls_visits {fuel : ℕ} {cursor : Option Sid} {left : ℤ} {m : List Sid}
    {visits : List Visited} (hv : v.WF) (hl : v.inLooping = true) (suffix : m <:+ v.socks)
    (hcursor : cursor = m.head?) (same : ∀ s ∈ m, v.fdOf s = w.fdOf s)
    (h : pollFromCalls R W io fuel cursor left v = .ok (visits, v')) :
    visits = (untilDone (w.busy R W) m left).map fun s => (s, w.due R W s) := by
  induction fuel generalizing cursor left m visits v with
  | zero =>
      cases m with
      | nil => subst hcursor; cases h; rfl
      | cons pos m => subst hcursor; cases h
  | succ fuel ih =>
      cases m with
      | nil => subst hcursor; cases h; rfl
      | cons pos m =>
          subst hcursor
          obtain ⟨⟨calls, handled, u⟩, hu, h⟩ := bind_eq_ok.mp h
          have hpos : pos ∈ v.socks := suffix.subset (List.mem_cons_self ..)
          obtain ⟨hcalls, hhandled⟩ := pollVisitCalls_due hv hl hpos hu
          have here := same pos (List.mem_cons_self ..)
          rw [World.due_congr here] at hcalls
          rw [World.busy_congr here] at hhandled
          subst hcalls hhandled
          dsimp only at h
          by_cases hbreak : (w.busy R W pos = true ∧ left - 1 = 0)
          · rw [if_pos hbreak.1, if_pos (by simpa using hbreak)] at h
            cases h
            rw [untilDone_last hbreak.1 hbreak.2]
            rfl
          · have go : ¬(w.busy R W pos &&
                decide ((if w.busy R W pos = true then left - 1 else left) = 0)) = true := by
              intro hc
              obtain ⟨hb, hz⟩ := (Bool.and_eq_true _ _).mp hc
              rw [if_pos hb] at hz
              exact hbreak ⟨hb, of_decide_eq_true hz⟩
            rw [if_neg go] at h
            obtain ⟨next, hnext, h⟩ := bind_eq_ok.mp h
            obtain ⟨⟨rest, x⟩, hrest, h⟩ := bind_eq_ok.mp h
            cases h
            rw [untilDone_next hbreak, List.map_cons]
            congr 1
            have hvisit : pollVisit R W pos (io pos) v = .ok (w.busy R W pos, u) := by
              rw [← pollVisitCalls_snd, hu]
              rfl
            obtain ⟨hw, hlu, hsuffix, hbehind, hfds⟩ := pollVisit_behind hv hl suffix hvisit
            rw [hbehind] at hnext
            exact ih hw hlu hsuffix (Except.ok.inj hnext).symm
              (fun s hs => (hfds s hs).trans (same s (List.mem_cons_of_mem _ hs))) hrest

/-! ## The whole poll -/

/-- The handler calls of a traversal, in order. -/
def handlerCalls (visits : List Visited) : List (Sid × Handler) :=
  visits.flatMap fun v => v.2.map (Prod.mk v.1)

/-- A traversal that visits listed sockets only, and calls for each of them the handlers for which
its descriptor is ready, each once and receive first. -/
structure Dispatched (R W : Finset ℤ) (w : World) (visits : List Visited) : Prop where
  /-- The sockets visited are the first ones of the list that `select` was called with. -/
  listed : visits.map Prod.fst <+: w.socks
  recvOnce : ∀ s ∈ w.socks, ∀ z, w.mem s = .live z →
    (handlerCalls visits).count (s, .recv) = if z.fd ∈ R then 1 else 0
  sendOnce : ∀ s ∈ w.socks, ∀ z, w.mem s = .live z →
    (handlerCalls visits).count (s, .send) = if z.fd ∈ W then 1 else 0
  recvFirst : ∀ v ∈ visits, v.2.Sublist [.recv, .send]

/-- A handler is called for the sockets visited for which it is due. -/
theorem mem_handlerCalls {l : List Sid} {h : Handler} :
    (s, h) ∈ handlerCalls (l.map fun t => (t, w.due R W t)) ↔ s ∈ l ∧ h ∈ w.due R W s := by
  unfold handlerCalls
  rw [List.flatMap_map, List.mem_flatMap]
  constructor
  · rintro ⟨t, ht, hh⟩
    obtain ⟨g, hg, same⟩ := List.mem_map.mp hh
    cases same
    exact ⟨ht, hg⟩
  · rintro ⟨hs, hh⟩
    exact ⟨s, hs, List.mem_map.mpr ⟨h, hh, rfl⟩⟩

/-- No handler is called twice for a socket. -/
theorem nodup_handlerCalls {l : List Sid} (nodup : l.Nodup) :
    (handlerCalls (l.map fun t => (t, w.due R W t))).Nodup := by
  unfold handlerCalls
  rw [List.flatMap_map, List.nodup_flatMap]
  constructor
  · intro t _
    have once : (w.due R W t).Nodup := (World.due_sublist w R W t).nodup (by decide)
    exact once.map (Prod.mk_right_injective t)
  · refine nodup.imp fun {a b} ne => ?_
    rintro ⟨t, h⟩ ha hb
    obtain ⟨_, -, ea⟩ := List.mem_map.mp ha
    obtain ⟨_, -, eb⟩ := List.mem_map.mp hb
    exact ne ((congrArg Prod.fst ea).trans (congrArg Prod.fst eb).symm)

/-- **A countdown from the number of ready descriptors dispatches them all.** -/
theorem World.WF.dispatched (hw : w.WF) (R W : Finset ℤ) :
    Dispatched R W w ((untilDone (w.busy R W) w.socks (R.card + W.card)).map
      fun s => (s, w.due R W s)) := by
  have enough : (w.socks.countP (w.busy R W) : ℤ) ≤ R.card + W.card := by
    exact_mod_cast hw.countP_busy R W
  have first := untilDone_prefix (w.busy R W) w.socks (R.card + W.card)
  -- a handler is called once for a listed socket for which it is due, and not for others
  have once : ∀ s ∈ w.socks, ∀ h, (handlerCalls ((untilDone (w.busy R W) w.socks
      (R.card + W.card)).map fun s => (s, w.due R W s))).count (s, h) =
        if h ∈ w.due R W s then 1 else 0 := by
    intro s hs h
    rw [(nodup_handlerCalls (first.sublist.nodup hw.nodup)).count]
    by_cases hd : h ∈ w.due R W s
    · have visited := mem_untilDone enough hs (World.busy_of_mem_due hd)
      rw [if_pos hd, if_pos (mem_handlerCalls.mpr ⟨visited, hd⟩)]
    · rw [if_neg hd, if_neg fun hc => hd (mem_handlerCalls.mp hc).2]
  constructor
  · rw [List.map_map]
    exact (List.map_id _).symm ▸ first
  · intro s hs z hz
    rw [once s hs, ← World.fdOf_eq hz]
    exact if_congr World.recv_mem_due rfl rfl
  · intro s hs z hz
    rw [once s hs, ← World.fdOf_eq hz]
    exact if_congr World.send_mem_due rfl rfl
  · intro v hv
    obtain ⟨s, -, rfl⟩ := List.mem_map.mp hv
    exact World.due_sublist w R W s

/-- **The dispatch is complete.** A poll that goes through has visited listed sockets only, and has
called the handlers of each for which `select` reported its descriptor, once and receive first. Only
the visit of a listed socket can keep a poll from going through (`zsocketPoll_fails`). -/
theorem poll_dispatches {timeout rc : ℤ} (hw : w.WF) (looping : w.inLooping = true)
    (h : zsocketPoll timeout (.ready R W) io w = .ok (rc, w')) :
    ∃ visits, zsocketPollCalls timeout (.ready R W) io w = .ok (visits, w') ∧
      Dispatched R W w visits := by
  have erased := zsocketPollCalls_snd timeout (.ready R W) io w
  rw [h] at erased
  obtain ⟨⟨visits, v⟩, hcalls, same⟩ := map_eq_ok.mp erased
  cases same
  refine ⟨visits, hcalls, ?_⟩
  obtain ⟨⟨selected, v⟩, hselect, hfrom⟩ := bind_eq_ok.mp hcalls
  obtain ⟨nfds, sec, usec, rfl, rfl⟩ := pollSelect_ready hselect
  have hlog : (w.log (.select nfds sec usec)).WF := hw.congr rfl rfl rfl rfl rfl rfl
  have hvisits := pollFromCalls_visits (w := w) hlog looping (List.suffix_refl w.socks) rfl
    (fun s _ => rfl) hfrom
  rw [hvisits]
  exact hw.dispatched R W

/-- A poll in which the connection `1` is read and its server `0` accepts another one. -/
theorem poll_dispatches_both : ∃ w visits, w.socks = [1, 0] ∧ Dispatched {3, 4} ∅ w visits := by
  let io : Sid → VisitIo := fun s =>
    .calling (if s = 0 then [.accept 0 ⟨some 2, some (5, ⟨0, 4001⟩), ⟨0, 8000⟩, 0⟩] else [])
  obtain ⟨c, r, h⟩ := Machine.Reach.of_leadsTo (M := zio)
    (P := fun c => decide (c.world.socks = [1, 0]) &&
      (zsocketPoll 1000 (.ready {3, 4} ∅) io { c.world with inLooping := true }).isOk) .init
    (show zio.leadsTo Machine.anyStep _ (readOne 8000) zio.init = true by decide +kernel)
  obtain ⟨hsocks, h⟩ := (Bool.and_eq_true _ _).mp h
  cases hpoll : zsocketPoll 1000 (.ready {3, 4} ∅) io { c.world with inLooping := true } with
  | error e => rw [hpoll] at h; cases h
  | ok out =>
      have hw : World.WF { c.world with inLooping := true } :=
        (Sys.sound r).wf.congr rfl rfl rfl rfl rfl rfl
      obtain ⟨visits, -, dispatched⟩ := poll_dispatches hw rfl hpoll
      exact ⟨{ c.world with inLooping := true }, visits, of_decide_eq_true hsocks, dispatched⟩

end LibZio
