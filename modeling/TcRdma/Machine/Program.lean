import Mathlib.Data.List.Basic

namespace tc_rdma.machine

/-- A program over a state. It returns a value or halts early, and leaves a
state in both cases. -/
abbrev Program (χ σ α : Type) := EStateM χ σ α

variable {χ σ α β : Type}

/-- From this state the program only returns as `Q` allows and only halts as
`E` allows. -/
def wp (x : Program χ σ α) (Q : α → σ → Prop) (E : χ → σ → Prop) (s : σ) : Prop :=
  match x s with
  | .ok a t => Q a t
  | .error e t => E e t

variable {Q Q' : α → σ → Prop} {E E' : χ → σ → Prop} {s t : σ}

theorem wp_pure (a : α) : wp (pure a : Program χ σ α) Q E s ↔ Q a s := Iff.rfl

theorem wp_get {Q : σ → σ → Prop} : wp (get : Program χ σ σ) Q E s ↔ Q s s := Iff.rfl

theorem wp_bind (x : Program χ σ α) (f : α → Program χ σ β) {Q : β → σ → Prop} :
    wp (x >>= f) Q E s ↔ wp x (fun a t => wp (f a) Q E t) E s := by
  show (match EStateM.bind x f s with | .ok a t => Q a t | .error e t => E e t) ↔ _
  unfold EStateM.bind wp
  cases x s with
  | ok a t => rfl
  | error e t => rfl

theorem wp_ite (c : Prop) [Decidable c] (x y : Program χ σ α) :
    wp (if c then x else y) Q E s ↔ (c → wp x Q E s) ∧ (¬ c → wp y Q E s) := by
  by_cases hc : c
  · simp [hc]
  · simp [hc]

theorem wp_mono {x : Program χ σ α} (hx : wp x Q E s) (hQ : ∀ a t, Q a t → Q' a t) (hE : ∀ e t, E e t → E' e t) :
    wp x Q' E' s := by
  unfold wp at hx ⊢
  cases hs : x s with
  | ok a t =>
    rw [hs] at hx
    exact hQ a t hx
  | error e t =>
    rw [hs] at hx
    exact hE e t hx

theorem wp_and {x : Program χ σ α} (h : wp x Q E s) (h' : wp x Q' E' s) :
    wp x (fun a t => Q a t ∧ Q' a t) (fun e t => E e t ∧ E' e t) s := by
  unfold wp at h h' ⊢
  cases hs : x s with
  | ok a t =>
    rw [hs] at h h'
    exact ⟨h, h'⟩
  | error e t =>
    rw [hs] at h h'
    exact ⟨h, h'⟩

/-- A specified program continued by one that is specified from where it
returns. -/
theorem wp_bind_of {x : Program χ σ α} {f : α → Program χ σ β} {R : β → σ → Prop} (hx : wp x Q E' s)
    (hf : ∀ a t, Q a t → wp (f a) R E t) (hE : ∀ e t, E' e t → E e t) : wp (x >>= f) R E s :=
  (wp_bind x f).mpr (wp_mono hx hf hE)

theorem bind_of_ok {x : Program χ σ α} {a : α} (hx : x s = .ok a t) (f : α → Program χ σ β) : (x >>= f) s = f a t := by
  show EStateM.bind x f s = _
  rw [EStateM.bind, hx]

theorem bind_of_error {x : Program χ σ α} {e : χ} (hx : x s = .error e t) (f : α → Program χ σ β) :
    (x >>= f) s = .error e t := by
  show EStateM.bind x f s = _
  rw [EStateM.bind, hx]

theorem wp_bind_ok {x : Program χ σ α} {a : α} (hx : x s = .ok a t) (f : α → Program χ σ β) {Q : β → σ → Prop} :
    wp (x >>= f) Q E s ↔ wp (f a) Q E t := by
  unfold wp
  rw [bind_of_ok hx]

theorem exists_ok_of_wp {x : Program χ σ α} (h : wp x Q (fun _ _ => False) s) : ∃ a t, x s = .ok a t ∧ Q a t := by
  unfold wp at h
  split at h
  · exact ⟨_, _, ‹_›, h⟩
  · exact h.elim

/-- Where each end says whether the program returns this value, it returns it
exactly when `C` holds. -/
theorem exists_ok_iff_of_wp {x : Program χ σ α} {a : α} {C : Prop}
    (h : wp x (fun b _ => b = a ↔ C) (fun _ _ => ¬ C) s) : (∃ t, x s = .ok a t) ↔ C := by
  unfold wp at h
  split at h
  · rename_i b t hs
    rw [hs, ← h]
    constructor
    · rintro ⟨t', hok⟩
      cases hok
      rfl
    · rintro rfl
      exact ⟨t, rfl⟩
  · rename_i e t hs
    refine iff_of_false ?_ h
    rintro ⟨t', hok⟩
    rw [hs] at hok
    cases hok

theorem bind_apply_congr {x y : Program χ σ α} (hxy : x s = y t) (f : α → Program χ σ β) :
    (x >>= f) s = (y >>= f) t := by
  show EStateM.bind x f s = EStateM.bind y f t
  rw [EStateM.bind, EStateM.bind, hxy]

theorem wp_ok {x : Program χ σ α} {a : α} (h : wp x Q E s) (hx : x s = .ok a t) : Q a t := by
  unfold wp at h
  rwa [hx] at h

theorem wp_error {x : Program χ σ α} {e : χ} (h : wp x Q E s) (hx : x s = .error e t) : E e t := by
  unfold wp at h
  rwa [hx] at h

/-- Whether the program halts as `p` says, which can be computed. -/
def Program.halts (x : Program χ σ α) (s : σ) (p : χ → σ → Bool) : Bool :=
  match x s with
  | .ok _ _ => false
  | .error e t => p e t

theorem Program.exists_of_halts {x : Program χ σ α} {p : χ → σ → Bool} (h : x.halts s p = true) :
    ∃ e t, x s = .error e t ∧ p e t = true := by
  unfold Program.halts at h
  split at h
  · cases h
  · exact ⟨_, _, ‹_›, h⟩

/-- Whether the program returns as `p` says, which can be computed. -/
def Program.returns (x : Program χ σ α) (s : σ) (p : α → σ → Bool) : Bool :=
  match x s with
  | .ok a t => p a t
  | .error _ _ => false

theorem Program.exists_of_returns {x : Program χ σ α} {p : α → σ → Bool} (h : x.returns s p = true) :
    ∃ a t, x s = .ok a t ∧ p a t = true := by
  unfold Program.returns at h
  split at h
  · exact ⟨_, _, ‹_›, h⟩
  · cases h

/-- The state that a program leaves. -/
def Program.final (x : Program χ σ α) (s : σ) : σ :=
  match x s with
  | .ok _ t => t
  | .error _ t => t

theorem Program.final_of_ok {x : Program χ σ α} {a : α} (hx : x s = .ok a t) : x.final s = t := by
  rw [Program.final, hx]

theorem Program.final_of_error {x : Program χ σ α} {e : χ} (hx : x s = .error e t) : x.final s = t := by
  rw [Program.final, hx]

theorem wp_final {x : Program χ σ α} {I : σ → Prop} (h : wp x (fun _ => I) (fun _ => I) s) : I (x.final s) := by
  unfold wp at h
  unfold Program.final
  split at h <;> exact h

/-- Where each end meets what is asked of it exactly when `C` holds of the state
left there, the program meets it exactly when `C` holds of its final state. -/
theorem wp_iff_final {x : Program χ σ α} {C : σ → Prop}
    (h : wp x (fun a t => Q a t ↔ C t) (fun e t => E e t ↔ C t) s) : wp x Q E s ↔ C (x.final s) := by
  unfold wp at h ⊢
  unfold Program.final
  split at h
  · exact h
  · exact h

/-- From every state, the program leaves a state related to it, and it halts
only for causes in `S`. -/
def Guarantees (R : σ → σ → Prop) (S : χ → Prop) (x : Program χ σ α) : Prop :=
  ∀ s, wp x (fun _ => R s) (fun e t => S e ∧ R s t) s

theorem Guarantees.bind {R : σ → σ → Prop} {S : χ → Prop} (htrans : ∀ {a b c}, R a b → R b c → R a c)
    {x : Program χ σ α} {f : α → Program χ σ β} (hx : Guarantees R S x) (hf : ∀ a, Guarantees R S (f a)) :
    Guarantees R S (x >>= f) := by
  intro s
  apply wp_bind_of (hx s) _ (fun _ _ h => h)
  intro a t hst
  exact wp_mono (hf a t) (fun _ _ => htrans hst) (fun _ _ h => ⟨h.1, htrans hst h.2⟩)

/-- Wherever `I` holds before the program, it holds after it. -/
def Preserves (I : σ → Prop) (x : Program χ σ α) : Prop := ∀ s, I s → wp x (fun _ => I) (fun _ => I) s

theorem Preserves.bind {I : σ → Prop} {x : Program χ σ α} {f : α → Program χ σ β} (hx : Preserves I x)
    (hf : ∀ a, Preserves I (f a)) : Preserves I (x >>= f) :=
  fun s h => wp_bind_of (hx s h) (fun a t ht => hf a t ht) fun _ _ h => h

theorem preserves_pure {I : σ → Prop} (a : α) : Preserves I (pure a : Program χ σ α) := fun _ h => h

theorem preserves_throw {I : σ → Prop} (e : χ) : Preserves I (throw e : Program χ σ α) := fun _ h => h

theorem preserves_get {I : σ → Prop} : Preserves I (get : Program χ σ σ) := fun _ h => h

theorem Preserves.ite {I : σ → Prop} {x y : Program χ σ α} (hx : Preserves I x) (hy : Preserves I y) (c : Prop)
    [Decidable c] : Preserves I (if c then x else y) := by
  by_cases hc : c
  · rwa [if_pos hc]
  · rwa [if_neg hc]

end tc_rdma.machine
