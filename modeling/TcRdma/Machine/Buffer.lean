import Mathlib.Data.List.Basic

namespace tc_rdma.machine

variable {α : Type} {b b' b'' : List α} {i j n : Nat} {v : α} {vs ws : List α}

/-- A store into a buffer. Outside the buffer there is nothing to store into. -/
def store (b : List α) (i : Nat) (v : α) : Option (List α) := if i < b.length then some (b.set i v) else none

/-- Values stored one after the other, the first at position `i`. -/
def stores (b : List α) : Nat → List α → Option (List α)
  | _, [] => some b
  | i, v :: vs => (store b i v).bind fun b => stores b (i + 1) vs

/-- The values loaded one after the other from `n` positions, the first being `i`. -/
def loads (b : List α) : Nat → Nat → Option (List α)
  | _, 0 => some []
  | i, n + 1 => b[i]?.bind fun v => (loads b (i + 1) n).map (v :: ·)

/-- The second buffer is the first one with `vs` written over it from `i` on. -/
structure Overwritten (b : List α) (i : Nat) (vs b' : List α) : Prop where
  length : b'.length = b.length
  inside : ∀ j, j < vs.length → b'[i + j]? = vs[j]?
  outside : ∀ j, j < i ∨ i + vs.length ≤ j → b'[j]? = b[j]?

theorem Overwritten.unique (h : Overwritten b i vs b') (h' : Overwritten b i vs b'') : b' = b'' := by
  apply List.ext_getElem?
  intro j
  by_cases hin : i ≤ j ∧ j < i + vs.length
  · obtain ⟨k, rfl⟩ := Nat.exists_eq_add_of_le hin.1
    rw [h.inside k (by omega), h'.inside k (by omega)]
  · rw [h.outside j (by omega), h'.outside j (by omega)]

theorem overwritten_nil (b : List α) (i : Nat) : Overwritten b i [] b := by
  constructor
  · rfl
  · intro j hj
    simp at hj
  · intro j _
    rfl

theorem Overwritten.cons (h : Overwritten (b.set i v) (i + 1) vs b') (hi : i < b.length) :
    Overwritten b i (v :: vs) b' := by
  constructor
  · rw [h.length, List.length_set]
  · intro j hj
    cases j with
    | zero =>
      rw [h.outside _ (by omega)]
      simp [hi]
    | succ j =>
      have hshift : i + (j + 1) = i + 1 + j := by omega
      rw [hshift, h.inside j (by simpa using hj), List.getElem?_cons_succ]
  · intro j hj
    rw [List.length_cons] at hj
    rw [h.outside j (by omega), List.getElem?_set_ne (by omega)]

/-- Stores succeed exactly inside the buffer. -/
theorem stores_eq_none : stores b i vs = none ↔ vs ≠ [] ∧ b.length < i + vs.length := by
  induction vs generalizing b i with
  | nil => simp [stores]
  | cons v vs ih =>
    rw [stores, store]
    split
    · rw [Option.bind_some, ih, List.length_set, List.length_cons]
      constructor
      · intro h
        exact ⟨by simp, by omega⟩
      · intro h
        have hne : vs ≠ [] := by
          intro hnil
          rw [hnil, List.length_nil] at h
          omega
        exact ⟨hne, by omega⟩
    · rw [Option.bind_none, List.length_cons]
      exact ⟨fun _ => ⟨by simp, by omega⟩, fun _ => rfl⟩

theorem overwritten_of_stores (h : stores b i vs = some b') : Overwritten b i vs b' := by
  induction vs generalizing b i with
  | nil =>
    cases h
    exact overwritten_nil _ i
  | cons v vs ih =>
    rw [stores, store] at h
    split at h
    · rename_i hi
      exact (ih h).cons hi
    · cases h

/-- Within the buffer the values are stored and nothing else changes. -/
theorem exists_stores (h : i + vs.length ≤ b.length) : ∃ b', stores b i vs = some b' ∧ Overwritten b i vs b' := by
  cases hs : stores b i vs with
  | none =>
    have hout := (stores_eq_none.mp hs).2
    omega
  | some b' => exact ⟨b', rfl, overwritten_of_stores hs⟩

theorem stores_append : stores b i (vs ++ ws) = (stores b i vs).bind fun b => stores b (i + vs.length) ws := by
  induction vs generalizing b i with
  | nil => simp [stores]
  | cons v vs ih =>
    have hshift : i + (vs.length + 1) = i + 1 + vs.length := by omega
    rw [List.cons_append, stores, stores, Option.bind_assoc, List.length_cons, hshift]
    congr 1
    funext b
    exact ih

theorem loads_eq_some : loads b i n = some vs ↔ vs.length = n ∧ ∀ j, j < n → b[i + j]? = vs[j]? := by
  induction n generalizing i vs with
  | zero =>
    rw [loads, Option.some.injEq, List.length_eq_zero_iff, eq_comm]
    exact ⟨fun h => ⟨h, by omega⟩, fun h => h.1⟩
  | succ n ih =>
    rw [loads, Option.bind_eq_some_iff]
    simp only [Option.map_eq_some_iff, ih]
    constructor
    · rintro ⟨v, hv, ws, ⟨hlength, hws⟩, rfl⟩
      refine ⟨by simp [hlength], ?_⟩
      intro j hj
      cases j with
      | zero => exact hv
      | succ j =>
        have hshift : i + (j + 1) = i + 1 + j := by omega
        rw [hshift, hws j (by omega), List.getElem?_cons_succ]
    · rintro ⟨hlength, hvs⟩
      cases vs with
      | nil => simp at hlength
      | cons v vs =>
        refine ⟨v, hvs 0 (by omega), vs, ⟨by simpa using hlength, ?_⟩, rfl⟩
        intro j hj
        have hshift : i + 1 + j = i + (j + 1) := by omega
        rw [hshift, hvs (j + 1) (by omega), List.getElem?_cons_succ]

theorem exists_loads (h : i + n ≤ b.length) : ∃ vs, loads b i n = some vs ∧ vs.length = n := by
  refine ⟨(b.drop i).take n, loads_eq_some.mpr ?_, by rw [List.length_take, List.length_drop]; omega⟩
  refine ⟨by rw [List.length_take, List.length_drop]; omega, ?_⟩
  intro j hj
  rw [List.getElem?_take_of_lt hj, List.getElem?_drop]

theorem loads_add {m : Nat} : loads b i (n + m) = (loads b i n).bind fun vs => (loads b (i + n) m).map (vs ++ ·) := by
  induction n generalizing i with
  | zero =>
    rw [Nat.zero_add, Nat.add_zero, loads, Option.bind_some]
    cases loads b i m with
    | none => rfl
    | some vs => rfl
  | succ n ih =>
    have hshift : n + 1 + m = n + m + 1 := by omega
    have hnext : i + (n + 1) = i + 1 + n := by omega
    rw [hshift, hnext, loads, loads, ih]
    cases b[i]? with
    | none => rfl
    | some v =>
      cases loads b (i + 1) n with
      | none => rfl
      | some vs =>
        cases loads b (i + 1 + n) m with
        | none => rfl
        | some ws => rfl

/-- What has been written over a buffer is read back. -/
theorem Overwritten.loads (h : Overwritten b i vs b') : loads b' i vs.length = some vs :=
  loads_eq_some.mpr ⟨rfl, h.inside⟩

theorem loads_congr (h : ∀ k, k < n → b'[j + k]? = b[j + k]?) : loads b' j n = loads b j n := by
  induction n generalizing j with
  | zero => rfl
  | succ n ih =>
    have htail : loads b' (j + 1) n = loads b (j + 1) n := by
      apply ih
      intro k hk
      have hshift : j + 1 + k = j + (k + 1) := by omega
      rw [hshift]
      exact h (k + 1) (by omega)
    have hhead : b'[j]? = b[j]? := h 0 (by omega)
    rw [machine.loads, machine.loads, htail, hhead]

/-- Reading apart from what has been written gives what it gave before. -/
theorem Overwritten.loads_apart (h : Overwritten b i vs b') (hapart : j + n ≤ i ∨ i + vs.length ≤ j) :
    machine.loads b' j n = machine.loads b j n := by
  apply loads_congr
  intro k hk
  exact h.outside (j + k) (by omega)

/-- Writing back what has been read changes nothing. -/
theorem stores_of_loads (h : loads b i n = some vs) : stores b i vs = some b := by
  obtain ⟨hlength, hvs⟩ := loads_eq_some.mp h
  have hsame : Overwritten b i vs b := ⟨rfl, fun j hj => hvs j (by omega), fun _ _ => rfl⟩
  cases hs : stores b i vs with
  | some b' => rw [(overwritten_of_stores hs).unique hsame]
  | none =>
    obtain ⟨hne, hout⟩ := stores_eq_none.mp hs
    have hpos := List.length_pos_of_ne_nil hne
    have hlast := hvs (n - 1) (by omega)
    rw [List.getElem?_eq_none (by omega), eq_comm, List.getElem?_eq_none_iff] at hlast
    omega

theorem loads_middle (front vs back : List α) : loads (front ++ vs ++ back) front.length vs.length = some vs := by
  refine loads_eq_some.mpr ⟨rfl, ?_⟩
  intro j hj
  rw [List.append_assoc, List.getElem?_append_right (by omega), List.getElem?_append_left (by omega)]
  congr 1
  omega

/-- What lies between two parts of a buffer is replaced by as many values. -/
theorem stores_middle {old : List α} (front vs back : List α) (hlength : old.length = vs.length) :
    stores (front ++ old ++ back) front.length vs = some (front ++ vs ++ back) := by
  have hover : Overwritten (front ++ old ++ back) front.length vs (front ++ vs ++ back) := by
    constructor
    · simp [hlength]
    · intro j hj
      exact (loads_eq_some.mp (loads_middle front vs back)).2 j hj
    · intro j hj
      by_cases hfront : j < front.length
      · rw [List.append_assoc, List.append_assoc, List.getElem?_append_left hfront,
          List.getElem?_append_left hfront]
      · rw [List.getElem?_append_right (by rw [List.length_append]; omega),
          List.getElem?_append_right (by rw [List.length_append]; omega), List.length_append,
          List.length_append, hlength]
  obtain ⟨b', hstores, hover'⟩ := exists_stores
    (show front.length + vs.length ≤ (front ++ old ++ back).length by simp; omega)
  rw [hstores, hover'.unique hover]

theorem store_middle (front vs back : List α) (hi : i < vs.length) :
    store (front ++ vs ++ back) (front.length + i) v = some (front ++ vs.set i v ++ back) := by
  have hin : front.length + i < (front ++ vs ++ back).length := by
    rw [List.length_append, List.length_append]
    omega
  rw [store, if_pos hin, List.append_assoc, List.set_append_right _ _ (by omega), Nat.add_sub_cancel_left,
    List.set_append_left _ _ hi, List.append_assoc]

theorem Overwritten.comm {b₁ b₂ b₃ b₄ : List α} (hapart : i + vs.length ≤ j ∨ j + ws.length ≤ i)
    (h₁ : Overwritten b i vs b₁) (h₃ : Overwritten b₁ j ws b₃) (h₂ : Overwritten b j ws b₂)
    (h₄ : Overwritten b₂ i vs b₄) : b₃ = b₄ := by
  apply List.ext_getElem?
  intro k
  by_cases hi : i ≤ k ∧ k < i + vs.length
  · obtain ⟨k, rfl⟩ := Nat.exists_eq_add_of_le hi.1
    rw [h₃.outside _ (by omega), h₁.inside k (by omega), h₄.inside k (by omega)]
  · by_cases hj : j ≤ k ∧ k < j + ws.length
    · obtain ⟨k, rfl⟩ := Nat.exists_eq_add_of_le hj.1
      rw [h₃.inside k (by omega), h₄.outside _ (by omega), h₂.inside k (by omega)]
    · rw [h₃.outside k (by omega), h₁.outside k (by omega), h₄.outside k (by omega), h₂.outside k (by omega)]

/-- Writes to disjoint places may be made in either order. -/
theorem stores_comm (hapart : i + vs.length ≤ j ∨ j + ws.length ≤ i) :
    ((stores b i vs).bind fun b => stores b j ws) = (stores b j ws).bind fun b => stores b i vs := by
  cases hi : stores b i vs with
  | none =>
    rw [Option.bind_none]
    cases hj : stores b j ws with
    | none => rfl
    | some b₂ =>
      rw [Option.bind_some, eq_comm, stores_eq_none, (overwritten_of_stores hj).length]
      exact stores_eq_none.mp hi
  | some b₁ =>
    have h₁ := overwritten_of_stores hi
    rw [Option.bind_some]
    cases hj : stores b j ws with
    | none =>
      rw [Option.bind_none, stores_eq_none, h₁.length]
      exact stores_eq_none.mp hj
    | some b₂ =>
      have h₂ := overwritten_of_stores hj
      rw [Option.bind_some]
      cases hj' : stores b₁ j ws with
      | none =>
        rw [stores_eq_none, h₁.length, ← stores_eq_none, hj] at hj'
        cases hj'
      | some b₃ =>
        cases hi' : stores b₂ i vs with
        | none =>
          rw [stores_eq_none, h₂.length, ← stores_eq_none, hi] at hi'
          cases hi'
        | some b₄ =>
          have heq := Overwritten.comm hapart h₁ (overwritten_of_stores hj') h₂ (overwritten_of_stores hi')
          rw [heq]

end tc_rdma.machine
