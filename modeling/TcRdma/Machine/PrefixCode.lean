import Mathlib.Data.List.Infix

namespace tc_rdma.machine

variable {α β : Type} {encode : α → List β} {xs ys : List α}

/-- A code whose words are not empty and can be told from what they begin with. -/
structure PrefixCode (encode : α → List β) : Prop where
  nonempty : ∀ a, encode a ≠ []
  begins : ∀ a b rest rest', encode a ++ rest = encode b ++ rest' → a = b

/-- A sequence of code words that begins another one consists of its first words. -/
theorem PrefixCode.flatMap_prefix_iff (h : PrefixCode encode) :
    xs.flatMap encode <+: ys.flatMap encode ↔ xs <+: ys := by
  constructor
  · intro hprefix
    induction xs generalizing ys with
    | nil => exact List.nil_prefix
    | cons x xs ih =>
      obtain ⟨rest, hrest⟩ := hprefix
      cases ys with
      | nil =>
        rw [List.flatMap_cons, List.flatMap_nil, List.append_assoc] at hrest
        exact absurd (List.append_eq_nil_iff.mp hrest).1 (h.nonempty x)
      | cons y ys =>
        rw [List.flatMap_cons, List.flatMap_cons, List.append_assoc] at hrest
        obtain rfl := h.begins x y _ _ hrest
        exact List.cons_prefix_cons.mpr ⟨rfl, ih ⟨rest, List.append_cancel_left hrest⟩⟩
  · rintro ⟨rest, rfl⟩
    rw [List.flatMap_append]
    exact List.prefix_append _ _

end tc_rdma.machine
