import LibZio.Serial.Basic

/-! # What a call of the serial manager can do

One relation for each function of `serial_port.c`, with a constructor for each way through it that
names its guards and its whole effect, the record of handles and uses included. Every successful
call is an instance of its relation. -/

namespace LibZio

variable {B : Backend} {w w' : SerialWorld B}

/-! ## Finding an entry -/

/-- A dereferenced object is live. -/
theorem derefIn_eq_ok {Dev : Type} {mem : Pid → SerialSlot Dev} {p : Pid} {ctx : Serial Dev} :
    derefIn mem p = .ok ctx ↔ mem p = .live ctx := by
  unfold derefIn
  cases mem p <;> simp

/-- An entry that is found is on the list and has the device. -/
theorem findIn_some {Dev : Type} {mem : Pid → SerialSlot Dev} {device : String} {l : List Manger}
    {sm : Manger} (h : findIn mem device l = .ok (some sm)) :
    sm ∈ l ∧ ∃ ctx, mem sm.t = .live ctx ∧ ctx.backendData.device = device := by
  induction l with
  | nil => cases h
  | cons pos rest ih =>
      obtain ⟨ctx, hctx, h⟩ := bind_eq_ok.mp h
      by_cases hd : ctx.backendData.device = device
      · rw [if_pos hd] at h
        cases h
        exact ⟨List.mem_cons_self .., ctx, derefIn_eq_ok.mp hctx, hd⟩
      · rw [if_neg hd] at h
        exact ⟨List.mem_cons_of_mem _ (ih h).1, (ih h).2⟩

/-- Where no entry is found, no entry has the device. -/
theorem findIn_none {Dev : Type} {mem : Pid → SerialSlot Dev} {device : String} {l : List Manger}
    (h : findIn mem device l = .ok none) {sm : Manger} (hsm : sm ∈ l) :
    ∃ ctx, mem sm.t = .live ctx ∧ ctx.backendData.device ≠ device := by
  induction l with
  | nil => cases hsm
  | cons pos rest ih =>
      obtain ⟨ctx, hctx, h⟩ := bind_eq_ok.mp h
      by_cases hd : ctx.backendData.device = device
      · rw [if_pos hd] at h
        cases h
      · rw [if_neg hd] at h
        rcases List.mem_cons.mp hsm with rfl | hsm
        · exact ⟨ctx, derefIn_eq_ok.mp hctx, hd⟩
        · exact ih h hsm

/-- Among live entries with different devices, the entry with the device is found. -/
theorem findIn_eq {Dev : Type} {mem : Pid → SerialSlot Dev} {device : String} {l : List Manger}
    (live : ∀ m ∈ l, ∃ ctx, mem m.t = .live ctx) {sm : Manger} (hsm : sm ∈ l)
    (only : ∀ m ∈ l, ∀ ctx, mem m.t = .live ctx → ctx.backendData.device = device → m = sm)
    {ctx : Serial Dev} (hctx : mem sm.t = .live ctx) (hd : ctx.backendData.device = device) :
    findIn mem device l = .ok (some sm) := by
  induction l with
  | nil => cases hsm
  | cons pos rest ih =>
      obtain ⟨ctx', hctx'⟩ := live pos (List.mem_cons_self ..)
      refine bind_eq_ok.mpr ⟨ctx', derefIn_eq_ok.mpr hctx', ?_⟩
      by_cases hd' : ctx'.backendData.device = device
      · rw [if_pos hd', only pos (List.mem_cons_self ..) ctx' hctx' hd']
        rfl
      · rw [if_neg hd']
        rcases List.mem_cons.mp hsm with rfl | hsm
        · rw [hctx] at hctx'
          cases hctx'
          exact absurd hd hd'
        · exact ih (fun m hm => live m (List.mem_cons_of_mem _ hm)) hsm
            fun m hm => only m (List.mem_cons_of_mem _ hm)

/-! ## The ways through the functions -/

/-- An increment succeeds below the maximum. -/
theorem incr_eq_ok {n m : ℤ} : incr n = .ok m ↔ n < 2 ^ 31 - 1 ∧ m = n + 1 := by
  unfold incr
  split
  · next h => exact ⟨fun e => ⟨h, (Except.ok.inj e).symm⟩, fun e => congrArg _ e.2.symm⟩
  · next h => exact ⟨nofun, fun e => absurd e.1 h⟩

/-- The object that `serial_new` builds. -/
def newPort (asked : Request) (garbage : Serial B.Dev) : Serial B.Dev where
  debug := false
  isOpen := false
  errCode := 0
  shareMode := asked.shareMode.toNat
  backendData :=
    { device := B.devname asked.index, baud := asked.baud, dataBit := asked.dataBit
      stopBit := asked.stopBit, parity := asked.parity, dev := B.blank garbage.backendData.dev }

/-- The object that `serial_new` gives up: only its device and baud rate are set. -/
def badPort (asked : Request) (garbage : Serial B.Dev) : Serial B.Dev :=
  { garbage with backendData :=
      { garbage.backendData with device := B.devname asked.index, baud := asked.baud } }

/-- The ways through `serial_new`. -/
inductive NewStep (holder : ℕ) (asked : Request) (answer : NewAnswer B) (w : SerialWorld B) :
    Option Pid → SerialWorld B → Prop
  /-- The port is in use, and one side does not share or the settings differ. -/
  | refused {sm : Manger} (found : w.findSerial (B.devname asked.index) = .ok (some sm)) :
      NewStep holder asked answer w none w
  /-- The port is shared. -/
  | shared {sm : Manger} {t : Serial B.Dev}
      (found : w.findSerial (B.devname asked.index) = .ok (some sm)) (live : w.mem sm.t = .live t)
      (sharing : asked.shareMode ≠ 0) (shares : t.shareMode ≠ 0)
      (baud : t.backendData.baud = asked.baud) (parity : t.backendData.parity = asked.parity)
      (dataBit : t.backendData.dataBit = asked.dataBit)
      (stopBit : t.backendData.stopBit = asked.stopBit) (room : sm.refcount < 2 ^ 31 - 1) :
      NewStep holder asked answer w (some sm.t)
        ((w.putManger { sm with refcount := sm.refcount + 1 }).log
          (.acquired ⟨holder, sm.t, asked⟩))
  /-- The parity is not one that the library knows. -/
  | rejected (none : w.findSerial (B.devname asked.index) = .ok none)
      (unused : w.mem answer.ptr = .unused) (parity : parityKnown asked.parity = false) :
      NewStep holder asked answer w Option.none
        ((w.logDev answer.ptr (B.destory answer.close (badPort asked answer.garbage))).free
          answer.ptr)
  /-- The port is created. -/
  | created (none : w.findSerial (B.devname asked.index) = .ok none)
      (unused : w.mem answer.ptr = .unused) (parity : parityKnown asked.parity = true) :
      NewStep holder asked answer w (some answer.ptr)
        ((addSerial answer.ptr (w.put answer.ptr (newPort asked answer.garbage))).log
          (.acquired ⟨holder, answer.ptr, asked⟩))

/-- The ways through `serial_open`. -/
inductive OpenStep (k : Handle) (answer : B.OpenAnswer) (w : SerialWorld B) :
    ℤ → SerialWorld B → Prop
  /-- The port is not on the list. -/
  | orphan {ctx : Serial B.Dev} (live : w.mem k.port = .live ctx)
      (none : w.findSerial ctx.backendData.device = .ok none) : OpenStep k answer w (-1) w
  /-- The port is open already. -/
  | again {ctx : Serial B.Dev} {sm : Manger} (live : w.mem k.port = .live ctx)
      (found : w.findSerial ctx.backendData.device = .ok (some sm))
      (inUse : 0 < sm.opencount) (room : sm.opencount < 2 ^ 31 - 1) :
      OpenStep k answer w 0
        (((w.putManger { sm with opencount := sm.opencount + 1 }).put k.port
          { ctx with isOpen := true }).log (.opened k ctx.backendData.dev))
  /-- The backend does not open the port. -/
  | failed {ctx ctx' : Serial B.Dev} {sm : Manger} {rc : ℤ} {es : List (DevEvent B.Settings)}
      (live : w.mem k.port = .live ctx)
      (found : w.findSerial ctx.backendData.device = .ok (some sm))
      (unopened : ¬0 < sm.opencount)
      (backend : B.openDev answer w.openFds ctx = .ok (rc, ctx', es)) (failed : rc ≠ 0) :
      OpenStep k answer w (-1) ((w.put k.port ctx').logDev k.port es)
  /-- The backend opens the port. -/
  | opened {ctx ctx' : Serial B.Dev} {sm : Manger} {es : List (DevEvent B.Settings)}
      (live : w.mem k.port = .live ctx)
      (found : w.findSerial ctx.backendData.device = .ok (some sm))
      (unopened : ¬0 < sm.opencount)
      (backend : B.openDev answer w.openFds ctx = .ok (0, ctx', es)) :
      OpenStep k answer w 0
        (((((w.put k.port ctx').logDev k.port es).putManger
          { sm with opencount := sm.opencount + 1 }).put k.port { ctx' with isOpen := true }).log
            (.opened k ctx'.backendData.dev))

/-- The entry after `serial_close` has counted. -/
def Manger.countClose (sm : Manger) : Manger :=
  if 0 < sm.opencount then { sm with opencount := sm.opencount - 1 } else sm

@[simp] theorem Manger.countClose_t (sm : Manger) : sm.countClose.t = sm.t := by
  unfold Manger.countClose
  split <;> rfl

@[simp] theorem Manger.countClose_refcount (sm : Manger) :
    sm.countClose.refcount = sm.refcount := by
  unfold Manger.countClose
  split <;> rfl

/-- The ways through `serial_close`. -/
inductive CloseStep (k : Handle) (answer : B.CloseAnswer) (w : SerialWorld B) :
    ℤ → SerialWorld B → Prop
  /-- The port is not on the list. -/
  | orphan {ctx : Serial B.Dev} (live : w.mem k.port = .live ctx)
      (none : w.findSerial ctx.backendData.device = .ok none) :
      CloseStep k answer w (-1) (w.log (.closed k))
  /-- The port is still in use. -/
  | kept {ctx : Serial B.Dev} {sm : Manger} (live : w.mem k.port = .live ctx)
      (found : w.findSerial ctx.backendData.device = .ok (some sm))
      (inUse : sm.countClose.opencount ≠ 0) :
      CloseStep k answer w 0 ((w.log (.closed k)).putManger sm.countClose)
  /-- The backend is asked to close the port. -/
  | backend {ctx : Serial B.Dev} {sm : Manger} (live : w.mem k.port = .live ctx)
      (found : w.findSerial ctx.backendData.device = .ok (some sm))
      (unused : sm.countClose.opencount = 0) :
      CloseStep k answer w (B.closeDev answer ctx).1
        (((((w.log (.closed k)).putManger sm.countClose).log (.closing k.port)).put k.port
          (B.closeDev answer ctx).2.1).logDev k.port (B.closeDev answer ctx).2.2)

/-- The entry after `serial_destory` has counted. -/
def Manger.countRelease (sm : Manger) : Manger :=
  if 0 < sm.refcount then { sm with refcount := sm.refcount - 1 } else sm

@[simp] theorem Manger.countRelease_t (sm : Manger) : sm.countRelease.t = sm.t := by
  unfold Manger.countRelease
  split <;> rfl

@[simp] theorem Manger.countRelease_opencount (sm : Manger) :
    sm.countRelease.opencount = sm.opencount := by
  unfold Manger.countRelease
  split <;> rfl

/-- The ways through `serial_destory`. -/
inductive DestoryStep (k : Handle) (answer : B.CloseAnswer) (w : SerialWorld B) :
    SerialWorld B → Prop
  /-- The port is not on the list. -/
  | orphan {ctx : Serial B.Dev} (live : w.mem k.port = .live ctx)
      (none : w.findSerial ctx.backendData.device = .ok none) :
      DestoryStep k answer w ((w.log (.released k)).free k.port)
  /-- Other handles to the port are out. -/
  | kept {ctx : Serial B.Dev} {sm : Manger} (live : w.mem k.port = .live ctx)
      (found : w.findSerial ctx.backendData.device = .ok (some sm))
      (more : sm.countRelease.refcount ≠ 0) :
      DestoryStep k answer w ((w.log (.released k)).putManger sm.countRelease)
  /-- The port is destroyed. -/
  | last {ctx : Serial B.Dev} {sm : Manger} (live : w.mem k.port = .live ctx)
      (found : w.findSerial ctx.backendData.device = .ok (some sm))
      (none : sm.countRelease.refcount = 0) :
      DestoryStep k answer w
        (({ (w.log (.released k)).putManger sm.countRelease with
            mangers := ((w.log (.released k)).putManger sm.countRelease).mangers.filter
              fun m => m.t ≠ sm.countRelease.t }.logDev k.port (B.destory answer ctx)).free k.port)

/-- An object that was just written is read back. -/
theorem SerialWorld.deref_put (w : SerialWorld B) (p : Pid) (ctx : Serial B.Dev) :
    (w.put p ctx).deref p = .ok ctx :=
  derefIn_eq_ok.mpr (Function.update_self ..)

/-- Every `serial_new` takes one of its ways. -/
theorem serialNewRecord_step {holder : ℕ} {asked : Request} {answer : NewAnswer B} {r : Option Pid}
    (h : serialNewRecord holder asked answer w = .ok (r, w')) :
    NewStep holder asked answer w r w' := by
  obtain ⟨⟨r₀, v⟩, hnew, h⟩ := bind_eq_ok.mp h
  obtain ⟨found, hfound, hnew⟩ := bind_eq_ok.mp hnew
  cases found with
  | some sm =>
      obtain ⟨t, ht, hnew⟩ := bind_eq_ok.mp hnew
      have live := derefIn_eq_ok.mp ht
      dsimp only at hnew
      by_cases hshare : asked.shareMode = 0 ∨ t.shareMode = 0
      · rw [if_pos hshare] at hnew
        cases hnew
        cases h
        exact .refused hfound
      · rw [if_neg hshare] at hnew
        obtain ⟨sharing, shares⟩ := not_or.mp hshare
        by_cases hdiff : t.backendData.baud ≠ asked.baud ∨ t.backendData.parity ≠ asked.parity ∨
            t.backendData.dataBit ≠ asked.dataBit ∨ t.backendData.stopBit ≠ asked.stopBit
        · rw [if_pos hdiff] at hnew
          cases hnew
          cases h
          exact .refused hfound
        · rw [if_neg hdiff] at hnew
          simp only [not_or, not_not] at hdiff
          obtain ⟨baud, parity, dataBit, stopBit⟩ := hdiff
          obtain ⟨n, hn, hnew⟩ := bind_eq_ok.mp hnew
          obtain ⟨room, rfl⟩ := incr_eq_ok.mp hn
          cases hnew
          cases h
          exact .shared hfound live sharing shares baud parity dataBit stopBit room
  | none =>
      dsimp only at hnew
      cases hmem : w.mem answer.ptr with
      | live ctx => rw [hmem] at hnew; cases hnew
      | freed => rw [hmem] at hnew; cases hnew
      | unused =>
          rw [hmem] at hnew
          dsimp only at hnew
          cases hpar : parityKnown asked.parity with
          | false =>
              rw [hpar, Bool.not_false, if_pos rfl] at hnew
              cases hnew
              cases h
              exact .rejected hfound hmem hpar
          | true =>
              rw [hpar, Bool.not_true, if_neg Bool.false_ne_true] at hnew
              cases hnew
              cases h
              exact .created hfound hmem hpar

/-- Every `serial_open` takes one of its ways. -/
theorem serialOpenRecord_step {k : Handle} {answer : B.OpenAnswer} {rc : ℤ}
    (h : serialOpenRecord k answer w = .ok (rc, w')) : OpenStep k answer w rc w' := by
  obtain ⟨⟨rc₀, v⟩, hopen, h⟩ := bind_eq_ok.mp h
  obtain ⟨ctx, hctx, hopen⟩ := bind_eq_ok.mp hopen
  have live := derefIn_eq_ok.mp hctx
  obtain ⟨found, hfound, hopen⟩ := bind_eq_ok.mp hopen
  cases found with
  | none =>
      cases hopen
      cases h
      exact .orphan live hfound
  | some sm =>
      dsimp only at hopen
      by_cases inUse : 0 < sm.opencount
      · rw [if_pos inUse] at hopen
        obtain ⟨n, hn, hopen⟩ := bind_eq_ok.mp hopen
        obtain ⟨room, rfl⟩ := incr_eq_ok.mp hn
        cases hopen
        dsimp only at h
        rw [if_pos rfl, SerialWorld.deref_put] at h
        cases h
        exact .again live hfound inUse room
      · rw [if_neg inUse] at hopen
        obtain ⟨⟨rc', ctx', es⟩, hback, hopen⟩ := bind_eq_ok.mp hopen
        dsimp only at hopen
        by_cases hrc : rc' = 0
        · rw [if_pos hrc] at hopen
          subst hrc
          obtain ⟨n, hn, hopen⟩ := bind_eq_ok.mp hopen
          obtain ⟨-, rfl⟩ := incr_eq_ok.mp hn
          cases hopen
          dsimp only at h
          rw [if_pos rfl, SerialWorld.deref_put] at h
          cases h
          exact .opened live hfound inUse hback
        · rw [if_neg hrc] at hopen
          cases hopen
          cases h
          exact .failed live hfound inUse hback hrc

/-- Every `serial_close` takes one of its ways. -/
theorem serialCloseRecord_step {k : Handle} {answer : B.CloseAnswer} {rc : ℤ}
    (h : serialCloseRecord k answer w = .ok (rc, w')) : CloseStep k answer w rc w' := by
  obtain ⟨ctx, hctx, h⟩ := bind_eq_ok.mp h
  have live := derefIn_eq_ok.mp hctx
  obtain ⟨found, hfound, h⟩ := bind_eq_ok.mp h
  cases found with
  | none =>
      cases h
      exact .orphan live hfound
  | some sm =>
      change (if sm.countClose.opencount = 0 then _ else _) = _ at h
      by_cases unused : sm.countClose.opencount = 0
      · rw [if_pos unused] at h
        cases h
        exact .backend live hfound unused
      · rw [if_neg unused] at h
        cases h
        exact .kept live hfound unused

/-- Every `serial_destory` takes one of its ways. -/
theorem serialDestoryRecord_step {k : Handle} {answer : B.CloseAnswer}
    (h : serialDestoryRecord k answer w = .ok w') : DestoryStep k answer w w' := by
  obtain ⟨ctx, hctx, h⟩ := bind_eq_ok.mp h
  have live := derefIn_eq_ok.mp hctx
  obtain ⟨found, hfound, h⟩ := bind_eq_ok.mp h
  cases found with
  | none =>
      cases h
      exact .orphan live hfound
  | some sm =>
      change (if sm.countRelease.refcount = 0 then _ else _) = _ at h
      by_cases none : sm.countRelease.refcount = 0
      · rw [if_pos none] at h
        cases h
        exact .last live hfound none
      · rw [if_neg none] at h
        cases h
        exact .kept live hfound none

end LibZio
