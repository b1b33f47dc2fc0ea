import TcRdma.Machine.Program

namespace tc_rdma.machine

variable {χ σ α β γ δ : Type}

/-- The second program does what the first one does, except where the first
one halts because it waits: the second may go on from there. -/
def Prolongs (waits : χ → Prop) (R : σ → σ → Prop) (A : α → β → Prop) (x : Program χ σ α) (y : Program χ σ β) :
    Prop :=
  ∀ s, wp x (fun a t => ∃ b, y s = .ok b t ∧ A a b) (fun e t => y s = .error e t ∨ waits e ∧ R t (y.final s)) s

/-- From every state, the program leaves a state related to it. -/
abbrev Grows (R : σ → σ → Prop) (x : Program χ σ α) : Prop := Guarantees R (fun _ => True) x

variable {waits : χ → Prop} {R : σ → σ → Prop} {A : α → β → Prop} {B : γ → δ → Prop}

theorem Guarantees.grows {S : χ → Prop} {x : Program χ σ α} (hx : Guarantees R S x) : Grows R x :=
  fun s => wp_mono (hx s) (fun _ _ h => h) fun _ _ h => ⟨trivial, h.2⟩

theorem Grows.final {x : Program χ σ α} (hx : Grows R x) (s : σ) : R s (x.final s) :=
  wp_final (I := R s) (wp_mono (hx s) (fun _ _ h => h) fun _ _ h => h.2)

theorem grows_of_final {x : Program χ σ α} (h : ∀ s, R s (x.final s)) : Grows R x := by
  intro s
  have hfinal := h s
  unfold wp
  unfold Program.final at hfinal
  split at hfinal
  · exact hfinal
  · exact ⟨trivial, hfinal⟩

theorem Grows.ite {x y : Program χ σ α} {c : Prop} [Decidable c] (hx : Grows R x) (hy : Grows R y) :
    Grows R (if c then x else y) := by
  intro s
  rw [wp_ite]
  exact ⟨fun _ => hx s, fun _ => hy s⟩

theorem prolongs_refl {A : α → α → Prop} (hrefl : ∀ a, A a a) (x : Program χ σ α) : Prolongs waits R A x x := by
  intro s
  unfold wp
  split
  · exact ⟨_, ‹_›, hrefl _⟩
  · exact .inl ‹_›

theorem prolongs_pure {a : α} {b : β} (h : A a b) :
    Prolongs waits R A (pure a : Program χ σ α) (pure b : Program χ σ β) := fun _ => ⟨b, rfl, h⟩

/-- Whatever grows goes on from where the first program waits at once. -/
theorem prolongs_throw {e : χ} {y : Program χ σ β} (hwaits : waits e) (hy : Grows R y) :
    Prolongs waits R A (throw e : Program χ σ α) y := fun s => .inr ⟨hwaits, hy.final s⟩

/-- The two begin with the same program. -/
theorem Prolongs.after (x : Program χ σ α) {f : α → Program χ σ γ} {g : α → Program χ σ δ}
    (hfg : ∀ a, Prolongs waits R B (f a) (g a)) : Prolongs waits R B (x >>= f) (x >>= g) := by
  intro s
  cases hs : x s with
  | ok a t =>
    unfold wp Program.final
    rw [bind_of_ok hs, bind_of_ok hs]
    exact hfg a t
  | error e t =>
    unfold wp
    rw [bind_of_error hs, bind_of_error hs]
    exact .inl rfl

theorem Prolongs.ite {x x' : Program χ σ α} {y y' : Program χ σ β} {c : Prop} [Decidable c]
    (hxy : Prolongs waits R A x y) (hxy' : Prolongs waits R A x' y') :
    Prolongs waits R A (if c then x else x') (if c then y else y') := by
  by_cases hc : c
  · rwa [if_pos hc, if_pos hc]
  · rwa [if_neg hc, if_neg hc]

section Preorder

variable (hrefl : ∀ s, R s s) (htrans : ∀ {a b c}, R a b → R b c → R a c)

include hrefl in
/-- The second program leaves a state that comes after that of the first. -/
theorem Prolongs.final {x : Program χ σ α} {y : Program χ σ β} (hxy : Prolongs waits R A x y) (s : σ) :
    R (x.final s) (y.final s) := by
  have hbegun := hxy s
  cases hs : x s with
  | ok a t =>
    obtain ⟨b, hy, -⟩ := wp_ok hbegun hs
    rw [Program.final_of_ok hs, Program.final_of_ok hy]
    exact hrefl t
  | error e t =>
    rw [Program.final_of_error hs]
    rcases wp_error hbegun hs with hy | ⟨-, hgrows⟩
    · rw [Program.final_of_error hy]
      exact hrefl t
    · exact hgrows

include hrefl htrans in
theorem Prolongs.grows {x : Program χ σ α} {y : Program χ σ β} (hxy : Prolongs waits R A x y)
    (hx : Grows R x) : Grows R y :=
  grows_of_final fun s => htrans (hx.final s) (hxy.final hrefl s)

include hrefl in
theorem grows_final_bind {x : Program χ σ α} {f : α → Program χ σ γ} (hf : ∀ a, Grows R (f a)) (s : σ) :
    R (x.final s) ((x >>= f).final s) := by
  cases hs : x s with
  | ok a t =>
    rw [Program.final_of_ok hs, Program.final, bind_of_ok hs]
    exact (hf a).final t
  | error e t =>
    rw [Program.final_of_error hs, Program.final_of_error (bind_of_error hs f)]
    exact hrefl t

include hrefl htrans in
theorem Prolongs.bind {x : Program χ σ α} {y : Program χ σ β} {f : α → Program χ σ γ} {g : β → Program χ σ δ}
    (hxy : Prolongs waits R A x y) (hfg : ∀ a b, A a b → Prolongs waits R B (f a) (g b))
    (hg : ∀ b, Grows R (g b)) : Prolongs waits R B (x >>= f) (y >>= g) := by
  intro s
  have hbegun := hxy s
  cases hs : x s with
  | ok a t =>
    obtain ⟨b, hy, hab⟩ := wp_ok hbegun hs
    unfold wp Program.final
    rw [bind_of_ok hs, bind_of_ok hy]
    exact hfg a b hab t
  | error e t =>
    unfold wp
    rw [bind_of_error hs]
    rcases wp_error hbegun hs with hy | ⟨hwaits, hgrows⟩
    · exact .inl (bind_of_error hy g)
    · exact .inr ⟨hwaits, htrans hgrows (grows_final_bind hrefl hg s)⟩

end Preorder

end tc_rdma.machine
