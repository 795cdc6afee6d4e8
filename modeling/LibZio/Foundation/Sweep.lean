import LibZio.Foundation.Lists

/-! # Sweeps

A sweep passes over a list and takes the marked elements off it. An element that has expired is
marked when the pass comes to it. A *chief* that is taken off marks every element left with its key,
which fails if one of them is marked already. So a pass may mark elements behind it, and what is
marked depends on the order of the list. A pass that marks no more than what is due is one in which
every visit is *admitted* (`pass_of_admits`, `admits_of_pass`); then what is left of the list can be
read off its start (`Swept`). -/

namespace LibZio

universe u v

/-- What a sweep has to know of the elements. -/
structure Roll (α : Type u) (κ : Type v) where
  key : α → κ
  chief : α → Bool
  /-- Only an element that fits can be marked. -/
  fits : α → Bool

/-- A sweep so far. -/
structure Sweep (α : Type u) where
  listed : List α
  marked : α → Bool
  /-- How often each element has been marked. -/
  marks : α → ℕ

variable {α : Type u} {κ : Type v}

/-- Mark the elements `p`. -/
def Sweep.mark (st : Sweep α) (p : α → Bool) : Sweep α where
  listed := st.listed
  marked := fun b => st.marked b || p b
  marks := fun b => st.marks b + (p b).toNat

/-- No element of the list is marked. -/
def Sweep.Clear (st : Sweep α) : Prop := ∀ b ∈ st.listed, st.marked b = false

variable [DecidableEq α] [DecidableEq κ]

/-- Take an element off the list. -/
def Sweep.drop (st : Sweep α) (a : α) : Sweep α := { st with listed := st.listed.erase a }

namespace Roll

/-! ## Passes -/

section

variable (r : Roll α κ)

/-- Whether `b` is on the list `l` and has the key of `a`. -/
def mate (l : List α) (a b : α) : Bool := decide (b ∈ l) && decide (r.key a = r.key b)

/-- An element that has expired is marked, marked or not. -/
def expire (expired : α → Bool) (a : α) (st : Sweep α) : Option (Sweep α) :=
  if expired a then (if r.fits a then some (st.mark fun b => decide (b = a)) else none) else some st

/-- An element is taken off the list, and a chief marks its mates. -/
def remove (a : α) (st : Sweep α) : Option (Sweep α) :=
  if r.chief a then
    if (st.drop a).listed.all fun b => decide (r.key a ≠ r.key b) || (r.fits b && !st.marked b) then
      some ((st.drop a).mark (r.mate (st.drop a).listed a))
    else none
  else some (st.drop a)

/-- One iteration of a pass. -/
def visit (expired : α → Bool) (st : Sweep α) (a : α) : Option (Sweep α) := do
  let st ← r.expire expired a st
  if st.marked a then r.remove a st else some st

/-- A pass over the list. -/
def pass (expired : α → Bool) (st : Sweep α) : Option (Sweep α) :=
  st.listed.foldlM (r.visit expired) st

/-! ## When a visit marks what is due -/

/-- Whether one of the elements `p` is a marked chief that has the key of `b`. -/
def struck (marked : α → Bool) (p : List α) (b : α) : Bool :=
  p.any fun a => r.chief a && marked a && decide (a ≠ b) && decide (r.key a = r.key b)

/-- Whether a pass of admitted visits takes `b` off the list. -/
def gone (expired : α → Bool) (st : Sweep α) (b : α) : Bool :=
  st.marked b || expired b || r.struck st.marked (st.listed.takeWhile (· ≠ b)) b

/-- The visit of `a` marks only what is due: `a` itself if it has expired, and what it strikes. -/
structure Admits (expired due : α → Bool) (st : Sweep α) (a : α) : Prop where
  expires : expired a = true →
    due a = true ∧ r.fits a = true ∧ r.struck st.marked (st.listed.takeWhile (· ≠ a)) a = false
  strikes : ∀ b ∈ st.listed, r.struck st.marked [a] b = true →
    (b ∈ st.listed.takeWhile (· ≠ a) ∧ (st.marked b || expired b) = true) ∨
      (due b = true ∧ r.fits b = true)

end

variable {r : Roll α κ} {expired due : α → Bool} {st st' st₀ : Sweep α} {a b c : α} {p l : List α}

/-! ## Marks are never taken back -/

omit [DecidableEq κ] in
theorem marks_expire (h : r.expire expired a st = some st') (b : α) : st.marks b ≤ st'.marks b := by
  unfold expire at h
  split at h
  · split at h
    · cases h; exact Nat.le_add_right _ _
    · cases h
  · cases h; exact Nat.le_refl _

theorem marks_remove (h : r.remove a st = some st') (b : α) : st.marks b ≤ st'.marks b := by
  unfold remove at h
  split at h
  · split at h
    · cases h; exact Nat.le_add_right _ _
    · cases h
  · cases h; exact Nat.le_refl _

/-- A visit marks the element first if it has expired, and then takes it off if it is marked. -/
theorem visit_eq_some : r.visit expired st a = some st' ↔ ∃ st₁, r.expire expired a st = some st₁ ∧
    (st₁.marked a = true ∧ r.remove a st₁ = some st' ∨ st₁.marked a = false ∧ st' = st₁) := by
  unfold visit
  rw [Option.bind_eq_bind, Option.bind_eq_some_iff]
  refine exists_congr fun st₁ => and_congr_right fun _ => ?_
  cases hm : st₁.marked a with
  | false => simp [eq_comm]
  | true => simp

theorem marks_visit (h : r.visit expired st a = some st') (b : α) : st.marks b ≤ st'.marks b := by
  obtain ⟨st₁, he, ⟨-, hr⟩ | ⟨-, rfl⟩⟩ := visit_eq_some.mp h
  · exact Nat.le_trans (marks_expire he b) (marks_remove hr b)
  · exact marks_expire he b

omit [DecidableEq κ] in
/-- An expired element that fits is marked. -/
theorem expire_eq_some (he : expired a = true) : r.expire expired a st = some st' ↔
    r.fits a = true ∧ st' = st.mark fun b => decide (b = a) := by
  rw [expire, if_pos he]
  cases r.fits a <;> simp [eq_comm]

omit [DecidableEq κ] in
/-- An element that has not expired is left as it is. -/
theorem expire_fresh (he : expired a = false) : r.expire expired a st = some st := by
  rw [expire, if_neg (by simp [he])]

/-- A chief can be taken off if its mates fit and are not marked. -/
theorem remove_chief (hc : r.chief a = true) : r.remove a st = some st' ↔
    (∀ b ∈ (st.drop a).listed, r.key a = r.key b → r.fits b = true ∧ st.marked b = false) ∧
      st' = (st.drop a).mark (r.mate (st.drop a).listed a) := by
  rw [remove, if_pos hc]
  split
  case isTrue h =>
      simp only [List.all_eq_true, Bool.or_eq_true, decide_eq_true_eq, Bool.and_eq_true,
        Bool.not_eq_true'] at h
      constructor
      · intro heq
        exact ⟨fun b hb hk => (h b hb).resolve_left fun hne => hne hk, (Option.some.inj heq).symm⟩
      · rintro ⟨-, rfl⟩
        rfl
  case isFalse h =>
      refine ⟨fun heq => (nomatch heq), fun ⟨hall, _⟩ => absurd ?_ h⟩
      simp only [List.all_eq_true, Bool.or_eq_true, decide_eq_true_eq, Bool.and_eq_true,
        Bool.not_eq_true']
      intro b hb
      by_cases hk : r.key a = r.key b
      · exact .inr (hall b hb hk)
      · exact .inl hk

/-- An element that is no chief is taken off alone. -/
theorem remove_follower (hc : r.chief a = false) : r.remove a st = some (st.drop a) := by
  rw [remove, if_neg (by simp [hc])]

theorem marks_foldlM {l : List α} (h : l.foldlM (r.visit expired) st = some st') (b : α) :
    st.marks b ≤ st'.marks b := by
  induction l generalizing st with
  | nil => cases h; exact Nat.le_refl _
  | cons a l ih =>
      rw [List.foldlM_cons] at h
      obtain ⟨st₁, hv, h⟩ := Option.bind_eq_some_iff.mp h
      exact Nat.le_trans (marks_visit hv b) (ih h)

/-! ## Striking -/

theorem struck_eq_true {marked : α → Bool} : r.struck marked p b = true ↔
    ∃ a ∈ p, r.chief a = true ∧ marked a = true ∧ a ≠ b ∧ r.key a = r.key b := by
  simp [struck, and_assoc]

theorem mate_eq_true : r.mate l a b = true ↔ b ∈ l ∧ r.key a = r.key b := by
  simp [mate]

theorem struck_append {marked : α → Bool} {p' : List α} :
    r.struck marked (p ++ p') b = (r.struck marked p b || r.struck marked p' b) :=
  List.any_append

theorem struck_single {marked : α → Bool} : r.struck marked [a] b = true ↔
    r.chief a = true ∧ marked a = true ∧ a ≠ b ∧ r.key a = r.key b := by
  simp [struck, and_assoc]

/-! ## One pass -/

/-- The elements `due` are on the list, and none of them is marked or a chief. -/
structure Owes (r : Roll α κ) (due : α → Bool) (st : Sweep α) : Prop where
  nodup : st.listed.Nodup
  listed : ∀ b, due b = true → b ∈ st.listed
  «open» : ∀ b, due b = true → st.marked b = false
  follower : ∀ b, due b = true → r.chief b = false

/-- A sweep from `st₀` that has passed `p` and marked only what is due. -/
structure Swept (r : Roll α κ) (expired due : α → Bool) (st₀ : Sweep α) (p : List α)
    (st : Sweep α) : Prop where
  listed : st.listed = st₀.listed.filter fun b => !(decide (b ∈ p) && r.gone expired st₀ b)
  marked : ∀ b ∈ st₀.listed,
    st.marked b = (st₀.marked b || (decide (b ∈ p) && expired b) || r.struck st₀.marked p b)
  marks : ∀ b, st.marks b =
    st₀.marks b + (due b && (r.struck st₀.marked p b || (decide (b ∈ p) && expired b))).toNat

/-- A pass starts with nothing passed. -/
theorem Swept.start : r.Swept expired due st [] st where
  listed := by simp
  marked := by simp [struck]
  marks := by simp [struck]

/-- No two marked chiefs of one key are admitted. -/
theorem Admits.lone (ho : r.Owes due st₀) (hs : st₀.listed = p ++ a :: l)
    (hp : ∀ c ∈ p, r.Admits expired due st₀ c) (ha : st₀.marked a = true) (hc : c ∈ p)
    (hcc : r.chief c = true) (hcm : st₀.marked c = true) : r.key c ≠ r.key a := by
  intro hk
  have hd := ho.nodup
  rw [hs] at hd
  have hap : a ∉ p := notMem_front hd
  have hne : c ≠ a := fun e => hap (e ▸ hc)
  obtain ⟨hfront, -⟩ | ⟨hdue, -⟩ := (hp c hc).strikes a (by rw [hs]; simp)
    (struck_single.mpr ⟨hcc, hcm, hne, hk⟩)
  · rw [hs] at hfront
    exact hap (mem_of_mem_takeWhile hd hc hfront)
  · rw [ho.open a hdue] at ha
    cases ha

/-- What is struck by elements passed that is still to come is due. -/
theorem Admits.due_of_struck (ho : r.Owes due st₀) (hs : st₀.listed = p ++ a :: l)
    (hp : ∀ c ∈ p, r.Admits expired due st₀ c) (h : r.struck st₀.marked p a = true) :
    due a = true := by
  have hd := ho.nodup
  rw [hs] at hd
  have hap : a ∉ p := notMem_front hd
  obtain ⟨c, hc, hcc, hcm, hne, hk⟩ := struck_eq_true.mp h
  obtain ⟨hfront, -⟩ | ⟨hdue, -⟩ := (hp c hc).strikes a (by rw [hs]; simp)
    (struck_single.mpr ⟨hcc, hcm, hne, hk⟩)
  · rw [hs] at hfront
    exact absurd (mem_of_mem_takeWhile hd hc hfront) hap
  · exact hdue

/-- What a sweep has of an element still to come: it is on the list, and it is marked if it was
marked at the start or is struck. -/
theorem Swept.next (hI : r.Swept expired due st₀ p st) (ho : r.Owes due st₀)
    (hs : st₀.listed = p ++ a :: l) : a ∉ p ∧ a ∈ st.listed ∧
      st.marked a = (st₀.marked a || r.struck st₀.marked p a) ∧
      st₀.listed.takeWhile (· ≠ a) = p := by
  have hd := ho.nodup
  rw [hs] at hd
  have hap : a ∉ p := notMem_front hd
  have ha : a ∈ st₀.listed := by rw [hs]; simp
  refine ⟨hap, ?_, ?_, ?_⟩
  · rw [hI.listed, List.mem_filter]
    exact ⟨ha, by simp [hap]⟩
  · rw [hI.marked a ha]
    simp [hap]
  · rw [hs]
    exact takeWhile_ne_append hap

/-- A chief that is marked when it is visited was marked at the start. -/
theorem Swept.marked_chief (hI : r.Swept expired due st₀ p st) (ho : r.Owes due st₀)
    (hs : st₀.listed = p ++ a :: l) (hp : ∀ c ∈ p, r.Admits expired due st₀ c)
    (ha : st.marked a = true) (hc : r.chief a = true) : st₀.marked a = true := by
  rw [(hI.next ho hs).2.2.1, Bool.or_eq_true] at ha
  refine ha.resolve_right fun hstruck => ?_
  have := ho.follower a (Admits.due_of_struck ho hs hp hstruck)
  rw [hc] at this
  cases this

/-- What is left of the list once `a` is passed. -/
theorem filter_passed {gone : α → Bool} (hd : l.Nodup) (hap : a ∉ p) :
    l.filter (fun b => !(decide (b ∈ p ++ [a]) && gone b)) =
      if gone a then (l.filter fun b => !(decide (b ∈ p) && gone b)).erase a
      else l.filter fun b => !(decide (b ∈ p) && gone b) := by
  cases hg : gone a with
  | false =>
      rw [if_neg (by simp)]
      refine List.filter_congr fun b _ => ?_
      by_cases hb : b = a
      · subst hb; simp [hg]
      · simp [hb]
  | true =>
      rw [if_pos rfl, (hd.filter _).erase_eq_filter, List.filter_filter]
      refine List.filter_congr fun b _ => ?_
      by_cases hb : b = a
      · subst hb; simp [hg]
      · simp [hb]

/-- **An admitted visit of an element that has expired** marks it and takes it off the list. -/
theorem Swept.visit_expired (hI : r.Swept expired due st₀ p st) (ho : r.Owes due st₀)
    (hs : st₀.listed = p ++ a :: l) (ha : r.Admits expired due st₀ a) (he : expired a = true) :
    ∃ st', r.visit expired st a = some st' ∧ r.Swept expired due st₀ (p ++ [a]) st' := by
  obtain ⟨hap, -, -, hfront⟩ := hI.next ho hs
  obtain ⟨hdue, hfits, hnot⟩ := ha.expires he
  rw [hfront] at hnot
  have hc := ho.follower a hdue
  have hself : ∀ b, r.struck st₀.marked [a] b = false := by
    intro b
    simp [struck, hc]
  refine ⟨(st.mark fun b => decide (b = a)).drop a, visit_eq_some.mpr
    ⟨_, (expire_eq_some he).mpr ⟨hfits, rfl⟩, .inl ⟨by simp [Sweep.mark], remove_follower hc⟩⟩,
    ?_, ?_, ?_⟩
  · change st.listed.erase a = _
    rw [filter_passed ho.nodup hap, if_pos (by simp [gone, he]), hI.listed]
  · intro b hb
    change (st.marked b || decide (b = a)) = _
    rw [hI.marked b hb, struck_append, hself, Bool.or_false]
    by_cases hba : b = a
    · subst hba; simp [he]
    · simp [hba]
  · intro b
    change st.marks b + (decide (b = a)).toNat = _
    rw [hI.marks b, struck_append, hself, Bool.or_false]
    by_cases hba : b = a
    · subst hba; simp [he, hdue, hap, hnot]
    · simp [hba]

/-- What is off the list was passed and is gone. -/
theorem Swept.off (hI : r.Swept expired due st₀ p st) (hb : b ∈ st₀.listed)
    (hoff : b ∉ st.listed) : b ∈ p ∧ r.gone expired st₀ b = true := by
  rw [hI.listed, List.mem_filter] at hoff
  simpa [hb] using hoff

/-- **What an admitted chief strikes** is due and still on the list, or has been taken off
before. -/
theorem Swept.struck_cases (hI : r.Swept expired due st₀ p st) (ho : r.Owes due st₀)
    (hs : st₀.listed = p ++ a :: l) (hp : ∀ c ∈ p, r.Admits expired due st₀ c)
    (ha : r.Admits expired due st₀ a) (hc : r.chief a = true) (hm : st₀.marked a = true) (b : α) :
    (r.mate (st.drop a).listed a b = true ∧ r.struck st₀.marked [a] b = true ∧ due b = true ∧
        r.fits b = true ∧ st.marked b = false ∧ r.struck st₀.marked p b = false ∧
        (decide (b ∈ p) && expired b) = false) ∨
      (r.mate (st.drop a).listed a b = false ∧ (r.struck st₀.marked [a] b = false ∨
        b ∉ st₀.listed ∨ (b ∈ p ∧ (st₀.marked b || expired b) = true))) := by
  have hd := ho.nodup
  have hdl : st.listed.Nodup := by rw [hI.listed]; exact hd.filter _
  -- no other chief of the key of `a` strikes, since that one would strike `a`
  have hlone : ∀ {q : List α}, (∀ c ∈ q, c ∈ p) → r.key a = r.key b →
      r.struck st₀.marked q b = false := by
    intro q hq hk
    by_contra hcon
    rw [Bool.not_eq_false, struck_eq_true] at hcon
    obtain ⟨c, hcq, hcc, hcm, -, hck⟩ := hcon
    exact Admits.lone ho hs hp hm (hq c hcq) hcc hcm (hck.trans hk.symm)
  cases hstruck : r.struck st₀.marked [a] b with
  | false =>
      refine .inr ⟨?_, .inl rfl⟩
      by_contra hmate
      rw [Bool.not_eq_false, mate_eq_true] at hmate
      have hne : a ≠ b := by
        rintro rfl
        exact hdl.not_mem_erase hmate.1
      rw [struck_single.mpr ⟨hc, hm, hne, hmate.2⟩] at hstruck
      cases hstruck
  | true =>
      obtain ⟨-, -, hne, hk⟩ := struck_single.mp hstruck
      by_cases hb : b ∈ st.listed
      · have hb₀ : b ∈ st₀.listed ∧ ¬(b ∈ p ∧ r.gone expired st₀ b = true) := by
          rw [hI.listed] at hb
          obtain ⟨hb₀, hleft⟩ := List.mem_filter.mp hb
          exact ⟨hb₀, fun ⟨hbp, hgone⟩ => by simp [hbp, hgone] at hleft⟩
        obtain ⟨hfront, hoff⟩ | ⟨hdue, hfits⟩ := ha.strikes b hb₀.1 hstruck
        · rw [(hI.next ho hs).2.2.2] at hfront
          exact absurd ⟨hfront, by rw [gone, hoff, Bool.true_or]⟩ hb₀.2
        · have hin : (decide (b ∈ p) && expired b) = false := by
            by_contra hin
            rw [Bool.not_eq_false, Bool.and_eq_true, decide_eq_true_eq] at hin
            exact hb₀.2 ⟨hin.1, by rw [gone, hin.2, Bool.or_true, Bool.true_or]⟩
          have hnot := hlone (fun _ h => h) hk
          refine .inl ⟨?_, rfl, hdue, hfits, ?_, hnot, hin⟩
          · exact mate_eq_true.mpr ⟨(List.mem_erase_of_ne hne.symm).mpr hb, hk⟩
          · rw [hI.marked b hb₀.1, ho.open b hdue, hin, hnot]
            rfl
      · have hdrop : b ∉ (st.drop a).listed := fun h => hb (List.mem_of_mem_erase h)
        refine .inr ⟨by simp [mate, hdrop], ?_⟩
        by_cases hb₀ : b ∈ st₀.listed
        · obtain ⟨hbp, hgone⟩ := hI.off hb₀ hb
          refine .inr (.inr ⟨hbp, ?_⟩)
          rw [gone, hlone (fun c hcq => ?_) hk, Bool.or_false] at hgone
          · exact hgone
          · rw [hs] at hcq hd
            exact mem_of_mem_takeWhile hd hbp hcq
        · exact .inr (.inl hb₀)

/-- **An admitted visit of an element that has not expired**: it is left alone, or taken off with
what it strikes being marked. -/
theorem Swept.visit_unexpired (hI : r.Swept expired due st₀ p st) (ho : r.Owes due st₀)
    (hs : st₀.listed = p ++ a :: l) (hp : ∀ c ∈ p, r.Admits expired due st₀ c)
    (ha : r.Admits expired due st₀ a) (he : expired a = false) :
    ∃ st', r.visit expired st a = some st' ∧ r.Swept expired due st₀ (p ++ [a]) st' := by
  obtain ⟨hap, hal, hm, hfront⟩ := hI.next ho hs
  have hexpire : r.expire expired a st = some st := expire_fresh he
  have hgone : r.gone expired st₀ a = st.marked a := by
    rw [gone, hfront, hm, he, Bool.or_false]
  -- what the pass has of the visited element does not depend on whether it has passed it
  have hpass : ∀ b, (decide (b ∈ p ++ [a]) && expired b) = (decide (b ∈ p) && expired b) := by
    intro b
    by_cases hba : b = a
    · subst hba; simp [he]
    · simp [hba]
  by_cases hstrike : r.chief a = true ∧ st.marked a = true
  · obtain ⟨hc, hma⟩ := hstrike
    have hcases := hI.struck_cases ho hs hp ha hc (hI.marked_chief ho hs hp hma hc)
    refine ⟨(st.drop a).mark (r.mate (st.drop a).listed a), visit_eq_some.mpr ⟨st, hexpire,
      .inl ⟨hma, (remove_chief hc).mpr ⟨fun b hb hk => ?_, rfl⟩⟩⟩, ?_, ?_, ?_⟩
    · obtain ⟨-, -, -, hfits, hopen, -⟩ | ⟨hno, -⟩ := hcases b
      · exact ⟨hfits, hopen⟩
      · simp [mate, hb, hk] at hno
    · change st.listed.erase a = _
      rw [filter_passed ho.nodup hap, if_pos (by simp [hgone, hma]), hI.listed]
    · intro b hb
      change (st.marked b || r.mate (st.drop a).listed a b) = _
      rw [hpass, struck_append, ← Bool.or_assoc, ← hI.marked b hb]
      obtain ⟨hmate, hstruck, -⟩ | ⟨hmate, hstruck | hout | ⟨hbp, hoff⟩⟩ := hcases b
      · rw [hmate, hstruck]
      · rw [hmate, hstruck]
      · exact absurd hb hout
      · rw [hmate, hI.marked b hb]
        obtain hoff | hoff := (Bool.or_eq_true _ _).mp hoff <;> simp [hoff, hbp]
    · intro b
      change st.marks b + (r.mate (st.drop a).listed a b).toNat = _
      rw [hpass, struck_append, hI.marks b]
      obtain ⟨hmate, hstruck, hdue, -, -, hnot, hin⟩ | ⟨hmate, hstruck | hout | ⟨hbp, hoff⟩⟩ :=
        hcases b
      · simp [hmate, hstruck, hdue, hnot, hin]
      · simp [hmate, hstruck]
      · have hdue : due b = false := by
          by_contra hc
          exact hout (ho.listed b (by simpa using hc))
        simp [hmate, hdue]
      · obtain hoff | hoff := (Bool.or_eq_true _ _).mp hoff
        · have hdue : due b = false := by
            by_contra hc
            rw [ho.open b (by simpa using hc)] at hoff
            cases hoff
          simp [hmate, hdue]
        · simp [hmate, hoff, hbp]
  · -- nothing is struck
    have hself : ∀ b, r.struck st₀.marked [a] b = false := by
      intro b
      by_contra hc
      rw [Bool.not_eq_false, struck_single] at hc
      exact hstrike ⟨hc.1, by rw [hm, hc.2.1, Bool.true_or]⟩
    cases hma : st.marked a with
    | false =>
        refine ⟨st, visit_eq_some.mpr ⟨st, hexpire, .inr ⟨hma, rfl⟩⟩, ?_, ?_, ?_⟩
        · rw [filter_passed ho.nodup hap, if_neg (by simp [hgone, hma]), hI.listed]
        · intro b hb
          rw [hI.marked b hb, hpass, struck_append, hself, Bool.or_false]
        · intro b
          rw [hI.marks b, hpass, struck_append, hself, Bool.or_false]
    | true =>
        have hc : r.chief a = false := by simpa [hma] using hstrike
        refine ⟨st.drop a, visit_eq_some.mpr ⟨st, hexpire, .inl ⟨hma, remove_follower hc⟩⟩,
          ?_, ?_, ?_⟩
        · change st.listed.erase a = _
          rw [filter_passed ho.nodup hap, if_pos (by simp [hgone, hma]), hI.listed]
        · intro b hb
          rw [hpass, struck_append, hself, Bool.or_false]
          exact hI.marked b hb
        · intro b
          rw [hpass, struck_append, hself, Bool.or_false]
          exact hI.marks b

/-- No element has been marked more often than it is due. -/
def Within (due : α → Bool) (st₀ st : Sweep α) : Prop :=
  ∀ b, st.marks b ≤ st₀.marks b + (due b).toNat

/-- Where there is room for another mark, the element is due and has none. -/
theorem due_of_room {n : ℕ} {d x : Bool} (h : n + (d && x).toNat + 1 ≤ n + d.toNat) :
    d = true ∧ x = false := by
  cases d with
  | false => exact absurd h (Nat.not_succ_le_self n)
  | true =>
      cases x with
      | false => exact ⟨rfl, rfl⟩
      | true => exact absurd h (Nat.not_succ_le_self (n + 1))

/-- **A visit that stays within what is due is admitted.** -/
theorem Swept.admits (hI : r.Swept expired due st₀ p st) (ho : r.Owes due st₀)
    (hs : st₀.listed = p ++ a :: l) (hp : ∀ c ∈ p, r.Admits expired due st₀ c)
    (h : r.visit expired st a = some st') (hw : Within due st₀ st') :
    r.Admits expired due st₀ a := by
  obtain ⟨hap, hal, hm, hfront⟩ := hI.next ho hs
  obtain ⟨st₁, hexpire, hrest⟩ := visit_eq_some.mp h
  have hmarks : ∀ b, st₁.marks b ≤ st₀.marks b + (due b).toNat := by
    intro b
    obtain ⟨-, hr⟩ | ⟨-, rfl⟩ := hrest
    · exact Nat.le_trans (marks_remove hr b) (hw b)
    · exact hw b
  cases he : expired a with
  | true =>
      -- the element is marked, so it is due and was not marked before
      obtain ⟨hfits, rfl⟩ := (expire_eq_some he).mp hexpire
      have hcount := hmarks a
      rw [show (st.mark fun b => decide (b = a)).marks a = st.marks a + 1 by simp [Sweep.mark],
        hI.marks a] at hcount
      obtain ⟨hdue, hnone⟩ := due_of_room hcount
      refine ⟨fun _ => ⟨hdue, hfits, ?_⟩, fun b _ hstruck => ?_⟩
      · rw [hfront]
        exact (Bool.or_eq_false_iff.mp hnone).1
      · have hc := ho.follower a hdue
        rw [(struck_single.mp hstruck).1] at hc
        cases hc
  | false =>
      refine ⟨fun hc => absurd (he.symm.trans hc) (by decide), fun b hb hstruck => ?_⟩
      obtain ⟨hc, hma, hne, hk⟩ := struck_single.mp hstruck
      obtain rfl : st = st₁ := Option.some.inj ((expire_fresh he).symm.trans hexpire)
      have hma' : st.marked a = true := by rw [hm, hma, Bool.true_or]
      obtain ⟨-, hr⟩ | ⟨hno, -⟩ := hrest
      · obtain ⟨hmates, rfl⟩ := (remove_chief hc).mp hr
        by_cases hbl : b ∈ st.listed
        · -- the element is marked, so it is due
          have hdrop : b ∈ (st.drop a).listed := (List.mem_erase_of_ne hne.symm).mpr hbl
          have hcount : st.marks b + (r.mate (st.drop a).listed a b).toNat ≤ _ := hw b
          rw [mate_eq_true.mpr ⟨hdrop, hk⟩, hI.marks b] at hcount
          exact .inr ⟨(due_of_room hcount).1, (hmates b hdrop hk).1⟩
        · -- the element was taken off before, and no other chief has struck it
          obtain ⟨hbp, hgone⟩ := hI.off hb hbl
          refine .inl ⟨by rw [hfront]; exact hbp, ?_⟩
          rw [gone, Bool.or_eq_true] at hgone
          refine hgone.resolve_right fun hstruck' => ?_
          obtain ⟨c, hcq, hcc, hcm, -, hck⟩ := struck_eq_true.mp hstruck'
          have hd := ho.nodup
          rw [hs] at hd hcq
          exact Admits.lone ho hs hp hma (mem_of_mem_takeWhile hd hbp hcq) hcc hcm
            (hck.trans hk.symm)
      · rw [hma'] at hno
        cases hno

/-- **A pass in which every visit is admitted** runs to its end. -/
theorem pass_of_admits (ho : r.Owes due st) (h : ∀ a ∈ st.listed, r.Admits expired due st a) :
    ∃ st', r.pass expired st = some st' ∧ r.Swept expired due st st.listed st' := by
  have go : ∀ (l p : List α) (st₁ : Sweep α), st.listed = p ++ l → r.Swept expired due st p st₁ →
      ∃ st', l.foldlM (r.visit expired) st₁ = some st' ∧ r.Swept expired due st st.listed st' := by
    intro l
    induction l with
    | nil =>
        intro p st₁ hs hI
        rw [List.append_nil] at hs
        exact ⟨st₁, rfl, hs ▸ hI⟩
    | cons a l ih =>
        intro p st₁ hs hI
        have hp : ∀ c ∈ p, r.Admits expired due st c := fun c hc => h c (by rw [hs]; simp [hc])
        have ha : r.Admits expired due st a := h a (by rw [hs]; simp)
        have hvisit :
            ∃ st', r.visit expired st₁ a = some st' ∧ r.Swept expired due st (p ++ [a]) st' := by
          cases he : expired a with
          | true => exact hI.visit_expired ho hs ha he
          | false => exact hI.visit_unexpired ho hs hp ha he
        obtain ⟨st₂, hv, hI₂⟩ := hvisit
        obtain ⟨st', hrun, hI'⟩ := ih (p ++ [a]) st₂ (by rw [hs, List.append_assoc]; rfl) hI₂
        exact ⟨st', by rw [List.foldlM_cons, hv]; exact hrun, hI'⟩
  exact go st.listed [] st rfl Swept.start

/-- **A pass that stays within what is due** has only admitted visits. -/
theorem admits_of_pass (ho : r.Owes due st) (h : r.pass expired st = some st')
    (hw : Within due st st') :
    (∀ a ∈ st.listed, r.Admits expired due st a) ∧ r.Swept expired due st st.listed st' := by
  have go : ∀ (l p : List α) (st₁ : Sweep α), st.listed = p ++ l → r.Swept expired due st p st₁ →
      (∀ c ∈ p, r.Admits expired due st c) → l.foldlM (r.visit expired) st₁ = some st' →
      ∀ a ∈ st.listed, r.Admits expired due st a := by
    intro l
    induction l with
    | nil =>
        intro p st₁ hs _ hp _
        rw [List.append_nil] at hs
        exact hs ▸ hp
    | cons a l ih =>
        intro p st₁ hs hI hp hrun
        rw [List.foldlM_cons] at hrun
        obtain ⟨st₂, hv, hrun⟩ := Option.bind_eq_some_iff.mp hrun
        have ha : r.Admits expired due st a := hI.admits ho hs hp hv
          fun b => Nat.le_trans (marks_foldlM hrun b) (hw b)
        have hvisit :
            ∃ st', r.visit expired st₁ a = some st' ∧ r.Swept expired due st (p ++ [a]) st' := by
          cases he : expired a with
          | true => exact hI.visit_expired ho hs ha he
          | false => exact hI.visit_unexpired ho hs hp ha he
        obtain ⟨st₂', hv', hI₂⟩ := hvisit
        obtain rfl : st₂ = st₂' := Option.some.inj (hv.symm.trans hv')
        refine ih (p ++ [a]) st₂ (by rw [hs, List.append_assoc]; rfl) hI₂ (fun c hc => ?_) hrun
        obtain hc | hc := List.mem_append.mp hc
        · exact hp c hc
        · rw [List.mem_singleton.mp hc]
          exact ha
  have hall := go st.listed [] st rfl Swept.start (by simp) h
  obtain ⟨st'', hrun, hI⟩ := pass_of_admits ho hall
  obtain rfl : st' = st'' := Option.some.inj (h.symm.trans hrun)
  exact ⟨hall, hI⟩

end Roll

end LibZio
