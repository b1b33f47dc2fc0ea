import Mathlib.Data.Fintype.Card
import Mathlib.Data.Fintype.List

namespace tc_rdma.machine

variable {ρ κ : Type} {next : ρ → Option ρ} {key : ρ → κ} {p q q' : ρ} {ps ps' : List ρ}

/-- From `p` the places `ps` are passed one after the other, and `q` is
reached. -/
def Walk (next : ρ → Option ρ) : ρ → List ρ → ρ → Prop
  | p, [], q => p = q
  | p, x :: ps, q => x = p ∧ ∃ p', next p = some p' ∧ Walk next p' ps q

/-- The walk never passes two places of the same key. -/
def Simple (key : ρ → κ) (ps : List ρ) : Prop := (ps.map key).Nodup

/-- A simple walk of which all others from the same place are beginnings. -/
structure LongestWalk (next : ρ → Option ρ) (key : ρ → κ) (p : ρ) (ps : List ρ) (q : ρ) : Prop where
  walk : Walk next p ps q
  simple : Simple key ps
  longest : ∀ ps' q', Walk next p ps' q' → Simple key ps' → ps' <+: ps

theorem Walk.isSome (h : Walk next p ps q) : ∀ x ∈ ps, (next x).isSome := by
  induction ps generalizing p with
  | nil => simp
  | cons x ps ih =>
    obtain ⟨rfl, p', hnext, hrest⟩ := h
    intro y hy
    rcases List.mem_cons.mp hy with rfl | hmem
    · rw [hnext]
      rfl
    · exact ih hrest y hmem

theorem Walk.congr {next' : ρ → Option ρ} (h : Walk next p ps q) (heq : ∀ x ∈ ps, next' x = next x) :
    Walk next' p ps q := by
  induction ps generalizing p with
  | nil => exact h
  | cons x ps ih =>
    obtain ⟨rfl, p', hnext, hrest⟩ := h
    refine ⟨rfl, p', ?_, ih hrest fun y hy => heq y (List.mem_cons_of_mem _ hy)⟩
    rw [heq x List.mem_cons_self, hnext]

/-- There is only one way to go on. -/
theorem Walk.prefix_or (h : Walk next p ps q) (h' : Walk next p ps' q') : ps <+: ps' ∨ ps' <+: ps := by
  induction ps generalizing p ps' with
  | nil => exact .inl List.nil_prefix
  | cons x ps ih =>
    cases ps' with
    | nil => exact .inr List.nil_prefix
    | cons x' ps' =>
      obtain ⟨rfl, p₁, hnext, hrest⟩ := h
      obtain ⟨rfl, p₂, hnext', hrest'⟩ := h'
      rw [hnext] at hnext'
      cases hnext'
      rw [List.prefix_cons_inj, List.prefix_cons_inj]
      exact ih hrest hrest'

/-- What comes after a walk begins where the walk ends. -/
theorem Walk.append (h : Walk next p ps q) (h' : Walk next p (ps ++ ps') q') : Walk next q ps' q' := by
  induction ps generalizing p with
  | nil =>
    cases h
    exact h'
  | cons x ps ih =>
    obtain ⟨-, p₁, hnext, hrest⟩ := h
    obtain ⟨-, p₂, hnext', hrest'⟩ := h'
    rw [hnext] at hnext'
    cases hnext'
    exact ih hrest hrest'

/-- A walk is as long as it can be when it ends where no step leads on, or
where a key that it has passed comes up again. -/
theorem longestWalk_of_stuck (hwalk : Walk next p ps q) (hsimple : Simple key ps)
    (hstuck : next q = none ∨ key q ∈ ps.map key) : LongestWalk next key p ps q := by
  refine ⟨hwalk, hsimple, ?_⟩
  intro ps' q' hwalk' hsimple'
  rcases hwalk.prefix_or hwalk' with hprefix | hprefix
  · obtain ⟨rest, rfl⟩ := hprefix
    have hrest := hwalk.append hwalk'
    cases rest with
    | nil => simp
    | cons x rest =>
      obtain ⟨rfl, p', hnext, -⟩ := hrest
      rcases hstuck with hnone | hpassed
      · rw [hnext] at hnone
        cases hnone
      · rw [Simple, List.map_append, List.map_cons, List.nodup_append] at hsimple'
        exact absurd rfl (hsimple'.2.2 (key x) hpassed (key x) List.mem_cons_self)
  · exact hprefix

/-- A simple walk is not longer than there are keys. -/
theorem Simple.length_le [Fintype κ] (h : Simple key ps) : ps.length ≤ Fintype.card κ := by
  have hle := h.length_le_card
  rw [List.length_map] at hle
  exact hle

end tc_rdma.machine
