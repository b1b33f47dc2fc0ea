import Mathlib.Order.Basic

namespace tc_rdma.machine

/-- A dispenser of the numbered places below its capacity. It hands them out
in order and never takes one back, so the places below `issued` are taken. -/
structure Dispenser where
  capacity : Nat
  issued : Nat
  issued_le : issued ≤ capacity

/-- A dispenser with no place taken. -/
def Dispenser.fresh (capacity : Nat) : Dispenser := ⟨capacity, 0, Nat.zero_le _⟩

/-- Handing out the next place. -/
def Dispenser.issue (d : Dispenser) (h : d.issued < d.capacity) : Dispenser :=
  ⟨d.capacity, d.issued + 1, h⟩

/-- The only step of a dispenser: it hands out a place while one is left. -/
inductive Dispenser.Step : Dispenser → Dispenser → Prop where
  | issue (d : Dispenser) (h : d.issued < d.capacity) : Step d (d.issue h)

end tc_rdma.machine
