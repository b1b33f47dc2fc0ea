import Mathlib.Logic.Relation

namespace tc_rdma.machine

/-- The run of a partial step function along a list of labels. It is `none`
as soon as one label is not enabled where it is taken. -/
def run {σ ℓ : Type} (step : σ → ℓ → Option σ) : σ → List ℓ → Option σ
  | s, [] => some s
  | s, l :: ls => (step s l).bind fun next => run step next ls

variable {σ ℓ : Type} {step : σ → ℓ → Option σ}

@[simp] theorem run_nil (s : σ) : run step s [] = some s := rfl

theorem run_cons_eq_some {s last : σ} {l : ℓ} {ls : List ℓ} :
    run step s (l :: ls) = some last ↔ ∃ next, step s l = some next ∧ run step next ls = some last := by
  simp [run, Option.bind_eq_some_iff]

theorem run_append_eq_some {s last : σ} {front back : List ℓ} :
    run step s (front ++ back) = some last ↔
      ∃ mid, run step s front = some mid ∧ run step mid back = some last := by
  induction front generalizing s with
  | nil => simp
  | cons l front ih =>
    simp only [List.cons_append, run_cons_eq_some, ih]
    constructor
    · rintro ⟨next, hstep, mid, hfront, hback⟩
      exact ⟨mid, ⟨next, hstep, hfront⟩, hback⟩
    · rintro ⟨mid, ⟨next, hstep, hfront⟩, hback⟩
      exact ⟨next, hstep, mid, hfront, hback⟩

theorem run_append_of_eq_some {s mid last : σ} {front back : List ℓ}
    (hfront : run step s front = some mid) (hback : run step mid back = some last) :
    run step s (front ++ back) = some last :=
  run_append_eq_some.mpr ⟨mid, hfront, hback⟩

theorem run_singleton_of_step {s next : σ} {l : ℓ} (hstep : step s l = some next) :
    run step s [l] = some next :=
  run_cons_eq_some.mpr ⟨next, hstep, rfl⟩

/-- What every enabled step preserves holds at the end of every run. The
steps need to preserve it only under labels that satisfy `P`. -/
theorem run_invariant_of {P : ℓ → Prop} {I : σ → Prop}
    (hkeep : ∀ s l next, P l → I s → step s l = some next → I next)
    {s last : σ} {ls : List ℓ} (hlabels : ∀ l ∈ ls, P l) (hstart : I s)
    (hrun : run step s ls = some last) : I last := by
  induction ls generalizing s with
  | nil =>
    cases hrun
    exact hstart
  | cons l ls ih =>
    obtain ⟨next, hstep, hrest⟩ := run_cons_eq_some.mp hrun
    have hnext := hkeep s l next (hlabels l (by simp)) hstart hstep
    exact ih (fun l hl => hlabels l (by simp [hl])) hnext hrest

theorem run_invariant {I : σ → Prop} (hkeep : ∀ s l next, I s → step s l = some next → I next)
    {s last : σ} {ls : List ℓ} (hstart : I s) (hrun : run step s ls = some last) : I last :=
  run_invariant_of (P := fun _ => True) (fun s l next _ => hkeep s l next)
    (fun _ _ => trivial) hstart hrun

/-- What every step makes larger by one counts the steps of a run. -/
theorem run_measure {size : σ → Nat} (hstep : ∀ s l next, step s l = some next → size next = size s + 1)
    {s last : σ} {ls : List ℓ} (hrun : run step s ls = some last) : size last = size s + ls.length := by
  induction ls generalizing s with
  | nil =>
    cases hrun
    rfl
  | cons l ls ih =>
    obtain ⟨next, hnext, hrest⟩ := run_cons_eq_some.mp hrun
    rw [ih hrest, hstep s l next hnext, List.length_cons]
    omega

/-- A reflexive and transitive relation that contains every step taken from a
state satisfying an invariant contains every run from such a state. -/
theorem run_related_of {P : ℓ → Prop} {I : σ → Prop} {R : σ → σ → Prop} (hrefl : ∀ s, R s s)
    (htrans : ∀ {a b c}, R a b → R b c → R a c)
    (hkeep : ∀ s l next, P l → I s → step s l = some next → I next)
    (hrel : ∀ s l next, P l → I s → step s l = some next → R s next)
    {s last : σ} {ls : List ℓ} (hlabels : ∀ l ∈ ls, P l) (hstart : I s)
    (hrun : run step s ls = some last) : R s last := by
  induction ls generalizing s with
  | nil =>
    cases hrun
    exact hrefl _
  | cons l ls ih =>
    obtain ⟨next, hstep, hrest⟩ := run_cons_eq_some.mp hrun
    have hl := hlabels l (by simp)
    have htail := ih (fun k hk => hlabels k (by simp [hk])) (hkeep s l next hl hstart hstep) hrest
    exact htrans (hrel s l next hl hstart hstep) htail

theorem run_related {I : σ → Prop} {R : σ → σ → Prop} (hrefl : ∀ s, R s s)
    (htrans : ∀ {a b c}, R a b → R b c → R a c)
    (hkeep : ∀ s l next, I s → step s l = some next → I next)
    (hrel : ∀ s l next, I s → step s l = some next → R s next)
    {s last : σ} {ls : List ℓ} (hstart : I s) (hrun : run step s ls = some last) : R s last :=
  run_related_of (P := fun _ => True) hrefl htrans (fun s l next _ => hkeep s l next)
    (fun s l next _ => hrel s l next) (fun _ _ => trivial) hstart hrun

/-- Until its goal is reached, a run takes at most as many counted labels as
the rank it starts from, when no step raises the rank and each counted one
lowers it. -/
theorem run_countP_le_or {P : ℓ → Prop} {I G : σ → Prop} {r : σ → Nat} {c : ℓ → Bool}
    (hkeep : ∀ s l next, P l → I s → step s l = some next → I next)
    (hgoal : ∀ s l next, P l → I s → G s → step s l = some next → G next)
    (hrank : ∀ s l next, P l → I s → step s l = some next →
      G next ∨ r next + (if c l then 1 else 0) ≤ r s)
    {s last : σ} {ls : List ℓ} (hlabels : ∀ l ∈ ls, P l) (hstart : I s)
    (hrun : run step s ls = some last) : G last ∨ r last + ls.countP c ≤ r s := by
  induction ls generalizing s with
  | nil =>
    cases hrun
    exact .inr (by simp)
  | cons l ls ih =>
    obtain ⟨next, hstep, hrest⟩ := run_cons_eq_some.mp hrun
    have hl := hlabels l (by simp)
    have hls : ∀ k ∈ ls, P k := fun k hk => hlabels k (by simp [hk])
    have hnext := hkeep s l next hl hstart hstep
    rcases hrank s l next hl hstart hstep with hreached | hhead
    · refine .inl (run_invariant_of (I := fun s => I s ∧ G s) ?_ hls ⟨hnext, hreached⟩ hrest).2
      rintro a k b hk ⟨ha, hg⟩ hab
      exact ⟨hkeep a k b hk ha hab, hgoal a k b hk ha hg hab⟩
    · rcases ih hls hnext hrest with hreached | htail
      · exact .inl hreached
      · right
        rw [List.countP_cons]
        omega

/-- A run takes at most as many counted labels as the rank it starts from. -/
theorem run_countP_le {P : ℓ → Prop} {I : σ → Prop} {r : σ → Nat} {c : ℓ → Bool}
    (hkeep : ∀ s l next, P l → I s → step s l = some next → I next)
    (hrank : ∀ s l next, P l → I s → step s l = some next →
      r next + (if c l then 1 else 0) ≤ r s)
    {s last : σ} {ls : List ℓ} (hlabels : ∀ l ∈ ls, P l) (hstart : I s)
    (hrun : run step s ls = some last) : r last + ls.countP c ≤ r s := by
  rcases run_countP_le_or (G := fun _ => False) hkeep (fun _ _ _ _ _ hfalse _ => hfalse.elim)
    (fun a k b hk ha hab => .inr (hrank a k b hk ha hab)) hlabels hstart hrun with hfalse | hle
  · exact hfalse.elim
  · exact hle

/-- Amortized cost. When each counted step is paid for by what the debt `d` loses or
the credit `k` gains, so are all counted labels of a run. -/
theorem run_countP_amortized {P : ℓ → Prop} {I : σ → Prop} {d k : σ → Nat} {c : ℓ → Bool}
    (hkeep : ∀ s l next, P l → I s → step s l = some next → I next)
    (hpaid : ∀ s l next, P l → I s → step s l = some next →
      (if c l then 1 else 0) + d next + k s ≤ d s + k next)
    {s last : σ} {ls : List ℓ} (hlabels : ∀ l ∈ ls, P l) (hstart : I s) (hrun : run step s ls = some last) :
    ls.countP c + d last + k s ≤ d s + k last := by
  induction ls generalizing s with
  | nil =>
    cases hrun
    simp
  | cons l ls ih =>
    obtain ⟨next, hstep, hrest⟩ := run_cons_eq_some.mp hrun
    have hl := hlabels l (by simp)
    have hhead := hpaid s l next hl hstart hstep
    have htail := ih (fun m hm => hlabels m (by simp [hm])) (hkeep s l next hl hstart hstep) hrest
    rw [List.countP_cons]
    omega

/-- From where every positive rank can be lowered by a run, rank zero can be
reached. The runs use only labels that satisfy `P`. -/
theorem run_reaches {P : ℓ → Prop} {I : σ → Prop} {r : σ → Nat}
    (hlower : ∀ s, I s → 0 < r s → ∃ ls next, (∀ l ∈ ls, P l) ∧ run step s ls = some next ∧ I next ∧ r next < r s)
    {s : σ} (hstart : I s) :
    ∃ ls last, (∀ l ∈ ls, P l) ∧ run step s ls = some last ∧ I last ∧ r last = 0 := by
  induction hrank : r s using Nat.strongRecOn generalizing s with
  | ind rank ih =>
    by_cases hzero : r s = 0
    · exact ⟨[], s, by simp, rfl, hstart, hzero⟩
    · obtain ⟨front, next, hfrontP, hfront, hnext, hlt⟩ := hlower s hstart (Nat.pos_of_ne_zero hzero)
      obtain ⟨back, last, hbackP, hback, hlast, hdone⟩ := ih (r next) (hrank ▸ hlt) hnext rfl
      refine ⟨front ++ back, last, ?_, run_append_of_eq_some hfront hback, hlast, hdone⟩
      intro l hl
      rcases List.mem_append.mp hl with hl | hl
      · exact hfrontP l hl
      · exact hbackP l hl

/-- Forward simulation. When every concrete step is matched by a sequence of
abstract steps that restores the relation, so is every concrete run. The steps
need to be matched only under labels that satisfy `P`. -/
theorem run_simulates_of {α : Type} {P : ℓ → Prop} {Abs : α → α → Prop} {R : σ → α → Prop}
    (hsim : ∀ s l next a, P l → R s a → step s l = some next →
      ∃ b, Relation.ReflTransGen Abs a b ∧ R next b)
    {s last : σ} {ls : List ℓ} {a : α} (hlabels : ∀ l ∈ ls, P l) (hstart : R s a) (hrun : run step s ls = some last) :
    ∃ b, Relation.ReflTransGen Abs a b ∧ R last b := by
  induction ls generalizing s a with
  | nil =>
    cases hrun
    exact ⟨a, .refl, hstart⟩
  | cons l ls ih =>
    obtain ⟨next, hstep, hrest⟩ := run_cons_eq_some.mp hrun
    obtain ⟨b, hab, hb⟩ := hsim s l next a (hlabels l (by simp)) hstart hstep
    obtain ⟨c, hbc, hc⟩ := ih (fun k hk => hlabels k (by simp [hk])) hb hrest
    exact ⟨c, hab.trans hbc, hc⟩

theorem run_simulates {α : Type} {Abs : α → α → Prop} {R : σ → α → Prop}
    (hsim : ∀ s l next a, R s a → step s l = some next →
      ∃ b, Relation.ReflTransGen Abs a b ∧ R next b)
    {s last : σ} {ls : List ℓ} {a : α} (hstart : R s a) (hrun : run step s ls = some last) :
    ∃ b, Relation.ReflTransGen Abs a b ∧ R last b :=
  run_simulates_of (P := fun _ => True) (fun s l next a _ => hsim s l next a) (fun _ _ => trivial) hstart hrun

/-- Every step of the run is taken where `C` allows it. -/
def StepsMeet (step : σ → ℓ → Option σ) (C : σ → ℓ → Prop) (s : σ) (ls : List ℓ) : Prop :=
  ∀ front l back mid, ls = front ++ l :: back → run step s front = some mid → C mid l

theorem stepsMeet_nil {C : σ → ℓ → Prop} (s : σ) : StepsMeet step C s [] := by
  intro front l back mid heq
  simp at heq

theorem stepsMeet_cons {C : σ → ℓ → Prop} {s next : σ} {l : ℓ} {ls : List ℓ}
    (hstep : step s l = some next) :
    StepsMeet step C s (l :: ls) ↔ C s l ∧ StepsMeet step C next ls := by
  constructor
  · intro hmeet
    refine ⟨hmeet [] l ls s rfl rfl, ?_⟩
    intro front k back mid heq hrun
    exact hmeet (l :: front) k back mid (by simp [heq]) (run_cons_eq_some.mpr ⟨next, hstep, hrun⟩)
  · rintro ⟨hhere, hrest⟩ front k back mid heq hrun
    cases front with
    | nil =>
      obtain ⟨rfl, rfl⟩ := List.cons.inj heq
      cases hrun
      exact hhere
    | cons head front =>
      obtain ⟨rfl, htail⟩ := List.cons.inj heq
      obtain ⟨next', hstep', hrun'⟩ := run_cons_eq_some.mp hrun
      rw [hstep] at hstep'
      cases hstep'
      exact hrest front k back mid htail hrun'

/-- The condition evaluated along a run. -/
def meets (step : σ → ℓ → Option σ) (c : σ → ℓ → Bool) : σ → List ℓ → Bool
  | _, [] => true
  | s, l :: ls => c s l && (step s l).elim true fun next => meets step c next ls

theorem stepsMeet_iff_meets {C : σ → ℓ → Prop} [∀ s l, Decidable (C s l)] {s : σ} {ls : List ℓ} :
    StepsMeet step C s ls ↔ meets step (fun s l => decide (C s l)) s ls = true := by
  induction ls generalizing s with
  | nil => exact ⟨fun _ => rfl, fun _ => stepsMeet_nil s⟩
  | cons l ls ih =>
    rw [meets, Bool.and_eq_true, decide_eq_true_iff]
    cases hstep : step s l with
    | some next => rw [stepsMeet_cons hstep, ih, Option.elim_some]
    | none =>
      constructor
      · exact fun hmeet => ⟨hmeet [] l ls s rfl rfl, rfl⟩
      · rintro ⟨hhere, -⟩ front k back mid heq hrun
        cases front with
        | nil =>
          obtain ⟨rfl, rfl⟩ := List.cons.inj heq
          cases hrun
          exact hhere
        | cons head front =>
          obtain ⟨rfl, -⟩ := List.cons.inj heq
          simp [run, hstep] at hrun

/-- Whether the steps of a run meet a condition can be computed. -/
instance {C : σ → ℓ → Prop} [∀ s l, Decidable (C s l)] (s : σ) (ls : List ℓ) : Decidable (StepsMeet step C s ls) :=
  decidable_of_iff' _ stepsMeet_iff_meets

theorem StepsMeet.mono {C D : σ → ℓ → Prop} {s : σ} {ls : List ℓ} (hmeet : StepsMeet step C s ls)
    (hCD : ∀ s l, C s l → D s l) : StepsMeet step D s ls :=
  fun front l back mid heq hrun => hCD mid l (hmeet front l back mid heq hrun)

theorem StepsMeet.of_append {C : σ → ℓ → Prop} {s : σ} {front back : List ℓ}
    (hmeet : StepsMeet step C s (front ++ back)) : StepsMeet step C s front := by
  rintro before l after mid rfl hrun
  exact hmeet before l (after ++ back) mid (by simp) hrun

theorem StepsMeet.append {C : σ → ℓ → Prop} {s mid : σ} {front back : List ℓ} (hfront : StepsMeet step C s front)
    (hrun : run step s front = some mid) (hback : StepsMeet step C mid back) : StepsMeet step C s (front ++ back) := by
  induction front generalizing s with
  | nil =>
    cases hrun
    exact hback
  | cons l front ih =>
    obtain ⟨next, hstep, hrest⟩ := run_cons_eq_some.mp hrun
    obtain ⟨hhere, htail⟩ := (stepsMeet_cons hstep).mp hfront
    exact (stepsMeet_cons hstep).mpr ⟨hhere, ih htail hrest⟩

theorem stepsMeet_of_forall {C : σ → ℓ → Prop} {s : σ} {ls : List ℓ} (hlabels : ∀ l ∈ ls, ∀ s, C s l) :
    StepsMeet step C s ls := by
  rintro front l back mid rfl -
  exact hlabels l (by simp) mid

/-- A run whose steps all meet a condition keeps what the steps meeting that
condition preserve. -/
theorem run_invariant_of_meet {C : σ → ℓ → Prop} {I : σ → Prop}
    (hkeep : ∀ s l next, C s l → I s → step s l = some next → I next)
    {s last : σ} {ls : List ℓ} (hmeet : StepsMeet step C s ls) (hstart : I s)
    (hrun : run step s ls = some last) : I last := by
  induction ls generalizing s with
  | nil =>
    cases hrun
    exact hstart
  | cons l ls ih =>
    obtain ⟨next, hstep, hrest⟩ := run_cons_eq_some.mp hrun
    obtain ⟨hhere, htail⟩ := (stepsMeet_cons hstep).mp hmeet
    exact ih htail (hkeep s l next hhere hstart hstep) hrest

/-- A run that ends where `G` holds and does not begin there takes a first step
into `G`. -/
theorem run_crosses {G : σ → Prop} {s last : σ} {ls : List ℓ} (hstart : ¬ G s) (hlast : G last)
    (hrun : run step s ls = some last) :
    ∃ front l back a b, ls = front ++ l :: back ∧ run step s front = some a ∧ step a l = some b ∧
      run step b back = some last ∧ StepsMeet step (fun c _ => ¬ G c) s front ∧ ¬ G a ∧ G b := by
  induction ls generalizing s with
  | nil =>
    cases hrun
    exact absurd hlast hstart
  | cons l ls ih =>
    obtain ⟨next, hstep, hrest⟩ := run_cons_eq_some.mp hrun
    by_cases hnext : G next
    · exact ⟨[], l, ls, s, next, rfl, rfl, hstep, hrest, stepsMeet_nil s, hstart, hnext⟩
    · obtain ⟨front, k, back, a, b, rfl, hfront, hcross, hback, hmeet, ha, hb⟩ := ih hnext hrest
      exact ⟨l :: front, k, back, a, b, rfl, run_cons_eq_some.mpr ⟨next, hstep, hfront⟩, hcross, hback,
        (stepsMeet_cons hstep).mpr ⟨hstart, hmeet⟩, ha, hb⟩

end tc_rdma.machine
