import Mathlib.Data.List.Basic
import Mathlib.Logic.Function.Basic
import Mathlib.Logic.Relation

namespace tc_rdma.machine

/-- A board on which each place is filled at most once, with the answers to
all questions for the place of a key, in their order. -/
structure Board (κ α : Type) where
  posted : κ → Option α
  answers : List (κ × Option α)

def Board.blank (κ α : Type) : Board κ α := ⟨fun _ => none, []⟩

variable {κ α : Type} [DecidableEq κ] {b c : Board κ α} {k : κ} {a : α}

/-- Posting and asking are atomic. -/
inductive Board.Step : Board κ α → Board κ α → Prop where
  | post (b : Board κ α) (k : κ) (a : α) (hfree : b.posted k = none) :
      Step b { b with posted := Function.update b.posted k (some a) }
  | ask (b : Board κ α) (k : κ) : Step b { b with answers := b.answers ++ [(k, b.posted k)] }

abbrev Board.Steps : Board κ α → Board κ α → Prop := Relation.ReflTransGen Board.Step

/-- What is posted stays. -/
theorem Board.Steps.posted (h : Board.Steps b c) (hposted : b.posted k = some a) : c.posted k = some a := by
  induction h with
  | refl => exact hposted
  | tail _ hstep ih =>
    cases hstep with
    | post other new hfree =>
      have hne : k ≠ other := by
        rintro rfl
        rw [hfree] at ih
        cases ih
      exact (Function.update_of_ne hne _ _).trans ih
    | ask other => exact ih

/-- From the moment something is posted every answer about it is the same. -/
theorem Board.Steps.answers (h : Board.Steps b c) (hposted : b.posted k = some a) :
    ∃ more, c.answers = b.answers ++ more ∧ ∀ answer ∈ more, answer.1 = k → answer.2 = some a := by
  induction h with
  | refl => exact ⟨[], by simp, by simp⟩
  | tail hsteps hstep ih =>
    obtain ⟨more, hanswers, hmore⟩ := ih
    cases hstep with
    | post other new hfree => exact ⟨more, hanswers, hmore⟩
    | ask other =>
      refine ⟨more ++ [(other, _)], by rw [hanswers, List.append_assoc], ?_⟩
      intro answer hmem hkey
      rcases List.mem_append.mp hmem with hmem | hmem
      · exact hmore answer hmem hkey
      · obtain rfl := List.mem_singleton.mp hmem
        obtain rfl : other = k := hkey
        exact Board.Steps.posted hsteps hposted

end tc_rdma.machine
