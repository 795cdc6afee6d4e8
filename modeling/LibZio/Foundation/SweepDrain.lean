import LibZio.Foundation.Sweep

/-! # Sweeps until nothing is marked

Passes of a sweep until nothing on the list is marked. If the elements due are no chiefs, there are
at most two: the first one may mark elements behind it, and these mark no others.
`Roll.drains_iff_matched` says when the passes mark exactly what is due, each element once. -/

namespace LibZio

universe u v

variable {α : Type u} {κ : Type v} [DecidableEq α] [DecidableEq κ]

namespace Roll

section

variable (r : Roll α κ)

/-- Passes until nothing is marked, where `expired n` are the elements expired in the pass `n`. -/
inductive Drains : (ℕ → α → Bool) → Sweep α → Sweep α → Prop
  | done {expired : ℕ → α → Bool} {st : Sweep α} (clear : st.Clear) : Drains expired st st
  | pass {expired : ℕ → α → Bool} {st st₁ st₂ : Sweep α} (pending : ¬ st.Clear)
      (run : r.pass (expired 0) st = some st₁) (rest : Drains (fun n => expired (n + 1)) st₁ st₂) :
      Drains expired st st₂

/-- Whether the first pass marks `b` when it has passed it. -/
def late (expired : α → Bool) (st : Sweep α) (b : α) : Bool :=
  r.struck st.marked st.listed b && !r.gone expired st b

/-- **When passes until nothing is marked mark what is due.** In the first pass every visit marks
only what is due. If it marks an element behind it there is a second pass, in which only elements
still due have expired. And everything due is struck, or expires in one of the passes. -/
structure Matched (expired : ℕ → α → Bool) (due : α → Bool) (st : Sweep α) : Prop where
  admits : ∀ a ∈ st.listed, r.Admits (expired 0) due st a
  again : (∃ b ∈ st.listed, r.late (expired 0) st b = true) →
    ∀ b ∈ st.listed, r.gone (expired 0) st b = false → expired 1 b = true →
      due b = true ∧ r.fits b = true ∧ r.struck st.marked st.listed b = false
  settled : ∀ b ∈ st.listed, due b = true →
    r.struck st.marked st.listed b = true ∨ expired 0 b = true ∨
      ((∃ b ∈ st.listed, r.late (expired 0) st b = true) ∧ expired 1 b = true)

end

variable {r : Roll α κ} {expired due : α → Bool} {st st' : Sweep α} {a b : α} {p : List α}

theorem Drains.marks {expired : ℕ → α → Bool} (h : r.Drains expired st st') (b : α) :
    st.marks b ≤ st'.marks b := by
  induction h with
  | done => exact Nat.le_refl _
  | pass _ run _ ih => exact Nat.le_trans (marks_foldlM run b) ih

/-! ## What a pass leaves -/

/-- What is left on the list after a pass is marked exactly if it was struck. -/
theorem Swept.left (hI : r.Swept expired due st st.listed st') (hb : b ∈ st'.listed) :
    b ∈ st.listed ∧ r.gone expired st b = false ∧
      st'.marked b = r.struck st.marked st.listed b := by
  rw [hI.listed] at hb
  obtain ⟨hb, hgone⟩ := List.mem_filter.mp hb
  have hg : r.gone expired st b = false := by simpa [hb] using hgone
  obtain ⟨⟨hm, he⟩, -⟩ : (st.marked b = false ∧ expired b = false) ∧ _ := by
    simpa only [gone, Bool.or_eq_false_iff] using hg
  refine ⟨hb, hg, ?_⟩
  rw [hI.marked b hb, hm, he, Bool.and_false, Bool.false_or, Bool.false_or]

/-- A pass leaves something marked exactly if it marks an element behind it. -/
theorem Swept.not_clear (hI : r.Swept expired due st st.listed st') :
    ¬ st'.Clear ↔ ∃ b ∈ st.listed, r.late expired st b = true := by
  rw [Sweep.Clear]
  constructor
  · intro h
    obtain ⟨b, hb, hm⟩ : ∃ b ∈ st'.listed, st'.marked b = true := by simpa using h
    obtain ⟨hb, hgone, hmarked⟩ := hI.left hb
    exact ⟨b, hb, by rw [late, ← hmarked, hm, hgone]; rfl⟩
  · rintro ⟨b, hb, hlate⟩ hclear
    obtain ⟨hstruck, hgone⟩ :
        r.struck st.marked st.listed b = true ∧ r.gone expired st b = false := by
      simpa [late] using hlate
    have hb' : b ∈ st'.listed := by
      rw [hI.listed, List.mem_filter]
      exact ⟨hb, by simp [hgone]⟩
    rw [← (hI.left hb').2.2, hclear b hb'] at hstruck
    cases hstruck

/-- What is struck by an admitted chief, and is left on the list, is due. -/
theorem Admits.due_of_left (h : ∀ a ∈ st.listed, r.Admits expired due st a) (hb : b ∈ st.listed)
    (hgone : r.gone expired st b = false) (hstruck : r.struck st.marked st.listed b = true) :
    due b = true := by
  obtain ⟨a, ha, hc, hm, hne, hk⟩ := struck_eq_true.mp hstruck
  obtain ⟨-, hoff⟩ | ⟨hdue, -⟩ := (h a ha).strikes b hb (struck_single.mpr ⟨hc, hm, hne, hk⟩)
  · rw [gone, hoff, Bool.true_or] at hgone
    cases hgone
  · exact hdue

/-- What is still due after a pass. -/
def stillDue (r : Roll α κ) (expired due : α → Bool) (st : Sweep α) (b : α) : Bool :=
  due b && !(r.struck st.marked st.listed b || expired b)

theorem stillDue_eq_true : r.stillDue expired due st b = true ↔
    due b = true ∧ r.struck st.marked st.listed b = false ∧ expired b = false := by
  simp [stillDue]

/-- What was due is marked by the pass or is still due. -/
theorem Swept.balance (hI : r.Swept expired due st st.listed st') (ho : r.Owes due st) (b : α) :
    st.marks b + (due b).toNat = st'.marks b + (r.stillDue expired due st b).toNat := by
  rw [hI.marks b, stillDue]
  cases hdue : due b with
  | false => simp
  | true =>
      have hb := ho.listed b hdue
      cases hm : r.struck st.marked st.listed b <;> cases he : expired b <;> simp [hb]

/-- The elements still due after a pass are left on the list, open. -/
theorem Swept.owes (hI : r.Swept expired due st st.listed st') (ho : r.Owes due st) :
    r.Owes (r.stillDue expired due st) st' := by
  have hleft : ∀ b, r.stillDue expired due st b = true →
      b ∈ st'.listed ∧ r.struck st.marked st.listed b = false := by
    intro b h
    obtain ⟨hdue, hstruck, he⟩ := stillDue_eq_true.mp h
    have hb := ho.listed b hdue
    have hfront : r.struck st.marked (st.listed.takeWhile (· ≠ b)) b = false := by
      by_contra hc
      rw [Bool.not_eq_false, struck_eq_true] at hc
      obtain ⟨a, ha, hrest⟩ := hc
      have := struck_eq_true.mpr ⟨a, (List.takeWhile_prefix _).subset ha, hrest⟩
      rw [hstruck] at this
      cases this
    refine ⟨?_, hstruck⟩
    rw [hI.listed, List.mem_filter]
    exact ⟨hb, by rw [gone, ho.open b hdue, he, hfront]; simp⟩
  refine ⟨by rw [hI.listed]; exact ho.nodup.filter _, fun b h => (hleft b h).1, fun b h => ?_,
    fun b h => ho.follower b (stillDue_eq_true.mp h).1⟩
  obtain ⟨hb, hstruck⟩ := hleft b h
  rw [(hI.left hb).2.2, hstruck]

/-- Without a marked chief on the list nothing is struck. -/
theorem struck_eq_false (h : ∀ c ∈ st.listed, r.chief c = true → st.marked c = false)
    (hp : ∀ c ∈ p, c ∈ st.listed) : r.struck st.marked p b = false := by
  by_contra hc
  rw [Bool.not_eq_false, struck_eq_true] at hc
  obtain ⟨a, ha, hac, ham, -⟩ := hc
  rw [h a (hp a ha) hac] at ham
  cases ham

/-- A pass without a marked chief on the list leaves nothing marked. -/
theorem Swept.clear (hI : r.Swept expired due st st.listed st')
    (h : ∀ c ∈ st.listed, r.chief c = true → st.marked c = false) : st'.Clear := by
  intro b hb
  rw [(hI.left hb).2.2]
  exact struck_eq_false h fun _ hc => hc

/-- An admitted pass leaves no chief marked. -/
theorem Swept.noChief (hI : r.Swept expired due st st.listed st') (ho : r.Owes due st)
    (hall : ∀ a ∈ st.listed, r.Admits expired due st a) :
    ∀ c ∈ st'.listed, r.chief c = true → st'.marked c = false := by
  intro c hc hchief
  obtain ⟨hc, hgone, hmarked⟩ := hI.left hc
  by_contra hm
  rw [Bool.not_eq_false, hmarked] at hm
  have := ho.follower c (Admits.due_of_left hall hc hgone hm)
  rw [hchief] at this
  cases this

/-- Without a marked chief on the list a visit is admitted if what has expired is due. -/
theorem Admits.of_noChief (h : ∀ c ∈ st.listed, r.chief c = true → st.marked c = false)
    (ha : a ∈ st.listed) (he : expired a = true → due a = true ∧ r.fits a = true) :
    r.Admits expired due st a where
  expires := fun hx => ⟨(he hx).1, (he hx).2,
    struck_eq_false h fun _ hc => (List.takeWhile_prefix _).subset hc⟩
  strikes := fun b _ hstruck => by
    rw [struck_eq_false h (by simpa using ha)] at hstruck
    cases hstruck

/-! ## The passes together -/

section

variable {expired : ℕ → α → Bool}

/-- Passes that mark exactly what is due meet the condition. -/
theorem Drains.matched (ho : r.Owes due st) (pending : ¬ st.Clear)
    (hdrain : r.Drains expired st st')
    (hmarks : ∀ b, st'.marks b = st.marks b + (due b).toNat) : r.Matched expired due st := by
  cases hdrain with
  | done clear => exact absurd clear pending
  | @pass _ _ st₁ _ _ run rest =>
      obtain ⟨hall, hI⟩ := admits_of_pass ho run fun b => (hmarks b) ▸ rest.marks b
      have ho₁ := hI.owes ho
      have hchief := hI.noChief ho hall
      have hmarks₁ : ∀ b, st'.marks b = st₁.marks b + (r.stillDue (expired 0) due st b).toNat :=
        fun b => (hmarks b).trans (hI.balance ho b)
      cases rest with
      | done clear =>
          have hnone := mt hI.not_clear.mpr (not_not_intro clear)
          refine ⟨hall, fun hlate => absurd hlate hnone, fun b _ hdue => ?_⟩
          by_contra hc
          simp only [not_or, Bool.not_eq_true] at hc
          have := hmarks₁ b
          rw [stillDue_eq_true.mpr ⟨hdue, hc.1, hc.2.1⟩] at this
          simp at this
      | @pass _ _ st₂ _ pending₁ run₁ rest₁ =>
          have hlate := hI.not_clear.mp pending₁
          obtain ⟨hall₁, hI₁⟩ := admits_of_pass ho₁ run₁ fun b => (hmarks₁ b) ▸ rest₁.marks b
          -- the second pass strikes nothing, so it is the last one
          have hend : st' = st₂ := by
            cases rest₁ with
            | done => rfl
            | pass pending₂ => exact absurd (hI₁.clear hchief) pending₂
          subst hend
          refine ⟨hall, fun _ b hb hgone hx => ?_, fun b _ hdue => ?_⟩
          · have hb₁ : b ∈ st₁.listed := by
              rw [hI.listed, List.mem_filter]
              exact ⟨hb, by simp [hgone]⟩
            obtain ⟨hdue, hfits, -⟩ := (hall₁ b hb₁).expires hx
            obtain ⟨hdue, hstruck, -⟩ := stillDue_eq_true.mp hdue
            exact ⟨hdue, hfits, hstruck⟩
          · by_contra hc
            simp only [not_or, not_and, Bool.not_eq_true] at hc
            have hdue₁ := stillDue_eq_true.mpr ⟨hdue, hc.1, hc.2.1⟩
            have := hI₁.balance ho₁ b
            rw [← hmarks₁ b, stillDue_eq_true.mpr ⟨hdue₁, struck_eq_false hchief fun _ h => h,
              hc.2.2 hlate⟩] at this
            simp at this

/-- Where the condition holds, a last pass or two mark what is due. -/
theorem Matched.drains (ho : r.Owes due st) (pending : ¬ st.Clear) (h : r.Matched expired due st) :
    ∃ st', r.Drains expired st st' ∧ ∀ b, st'.marks b = st.marks b + (due b).toNat := by
  obtain ⟨st₁, run, hI⟩ := pass_of_admits ho h.admits
  have ho₁ := hI.owes ho
  have hchief := hI.noChief ho h.admits
  by_cases hclear : st₁.Clear
  · -- one pass: what is due was struck or has expired
    refine ⟨st₁, .pass pending run (.done hclear), fun b => ?_⟩
    have hnone := mt hI.not_clear.mpr (not_not_intro hclear)
    have hdone : r.stillDue (expired 0) due st b = false := by
      by_contra hc
      rw [Bool.not_eq_false, stillDue_eq_true] at hc
      obtain hs | he | ⟨hlate, -⟩ := h.settled b (ho.listed b hc.1) hc.1
      · rw [hc.2.1] at hs; cases hs
      · rw [hc.2.2] at he; cases he
      · exact hnone hlate
    rw [hI.balance ho b, hdone]
    rfl
  -- a mate was struck after it was passed, so that a second pass follows
  · have hlate := hI.not_clear.mp hclear
    have hall₁ : ∀ a ∈ st₁.listed,
        r.Admits (expired 1) (r.stillDue (expired 0) due st) st₁ a := by
      refine fun a ha => Admits.of_noChief hchief ha fun hx => ?_
      obtain ⟨ha, hgone, -⟩ := hI.left ha
      obtain ⟨hdue, hfits, hstruck⟩ := h.again hlate a ha hgone hx
      refine ⟨stillDue_eq_true.mpr ⟨hdue, hstruck, ?_⟩, hfits⟩
      simp only [gone, Bool.or_eq_false_iff] at hgone
      exact hgone.1.2
    obtain ⟨st₂, run₁, hI₁⟩ := pass_of_admits ho₁ hall₁
    refine ⟨st₂, .pass pending run (.pass hclear run₁ (.done (hI₁.clear hchief))), fun b => ?_⟩
    have hdone : r.stillDue (expired 1) (r.stillDue (expired 0) due st) st₁ b = false := by
      by_contra hc
      rw [Bool.not_eq_false, stillDue_eq_true, stillDue_eq_true] at hc
      obtain ⟨⟨hdue, hstruck, he⟩, -, he₁⟩ := hc
      obtain hs | he' | ⟨-, he'⟩ := h.settled b (ho.listed b hdue) hdue
      · rw [hstruck] at hs; cases hs
      · rw [he] at he'; cases he'
      · rw [he₁] at he'; cases he'
    rw [hI.balance ho b, hI₁.balance ho₁ b, hdone]
    rfl

/-- **Passes until nothing is marked mark exactly what is due, each once**, if and only if `Matched`
holds. -/
theorem drains_iff_matched (ho : r.Owes due st) (pending : ¬ st.Clear) :
    (∃ st', r.Drains expired st st' ∧ ∀ b, st'.marks b = st.marks b + (due b).toNat) ↔
      r.Matched expired due st :=
  ⟨fun ⟨_, hdrain, hmarks⟩ => hdrain.matched ho pending hmarks, fun h => h.drains ho pending⟩

end

end Roll

end LibZio
