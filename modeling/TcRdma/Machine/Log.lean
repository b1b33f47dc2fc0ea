import Mathlib.Data.List.Induction

namespace tc_rdma.machine

variable {ω : Type}

/-- The log has been extended by entries that satisfy `A`. -/
def Extends (A : ω → Prop) (log log' : List ω) : Prop := ∃ added, log' = log ++ added ∧ ∀ o ∈ added, A o

theorem Extends.refl {A : ω → Prop} (log : List ω) : Extends A log log := ⟨[], by simp, by simp⟩

theorem Extends.one {A : ω → Prop} {log : List ω} {o : ω} (ho : A o) : Extends A log (log ++ [o]) :=
  ⟨[o], rfl, by simpa using ho⟩

theorem Extends.of_map {α : Type} (log : List ω) (f : α → ω) (l : List α) :
    Extends (fun o => ∃ a, o = f a) log (log ++ l.map f) := by
  refine ⟨l.map f, rfl, ?_⟩
  intro o ho
  obtain ⟨a, -, rfl⟩ := List.mem_map.mp ho
  exact ⟨a, rfl⟩

theorem Extends.trans {A : ω → Prop} {a b c : List ω} (hab : Extends A a b) (hbc : Extends A b c) : Extends A a c := by
  obtain ⟨front, rfl, hfront⟩ := hab
  obtain ⟨back, rfl, hback⟩ := hbc
  refine ⟨front ++ back, List.append_assoc _ _ _, ?_⟩
  intro o ho
  rcases List.mem_append.mp ho with ho | ho
  · exact hfront o ho
  · exact hback o ho

theorem Extends.mono {A B : ω → Prop} {a b : List ω} (h : Extends A a b) (hAB : ∀ o, A o → B o) : Extends B a b := by
  obtain ⟨added, rfl, hadded⟩ := h
  exact ⟨added, rfl, fun o ho => hAB o (hadded o ho)⟩

theorem Extends.and {A B : ω → Prop} {a b : List ω} (h : Extends A a b) (h' : Extends B a b) :
    Extends (fun o => A o ∧ B o) a b := by
  obtain ⟨added, rfl, hA⟩ := h
  obtain ⟨added', heq, hB⟩ := h'
  obtain rfl : added = added' := List.append_cancel_left heq
  exact ⟨added, rfl, fun o ho => ⟨hA o ho, hB o ho⟩⟩

theorem Extends.isPrefix {A : ω → Prop} {a b : List ω} (h : Extends A a b) : a <+: b := by
  obtain ⟨added, rfl, _⟩ := h
  exact List.prefix_append _ _

/-- Every entry of the log satisfies `P` with what comes before it. -/
def Always (P : List ω → ω → Prop) (log : List ω) : Prop := ∀ front o back, log = front ++ o :: back → P front o

theorem always_iff_getElem {P : List ω → ω → Prop} {log : List ω} :
    Always P log ↔ ∀ i : Fin log.length, P (log.take i) log[i] := by
  constructor
  · intro h i
    apply h (log.take i) log[i] (log.drop (i + 1))
    rw [Fin.getElem_fin, List.getElem_cons_drop, List.take_append_drop]
  · rintro h front o back rfl
    have hi : front.length < (front ++ o :: back).length := by simp
    simpa using h ⟨front.length, hi⟩

/-- A log can be checked entry by entry. -/
instance {P : List ω → ω → Prop} [∀ front o, Decidable (P front o)] (log : List ω) : Decidable (Always P log) :=
  decidable_of_iff' _ always_iff_getElem

theorem always_nil {P : List ω → ω → Prop} : Always P [] := by
  intro front o back heq
  simp at heq

theorem Always.mono {P Q : List ω → ω → Prop} {log : List ω} (h : Always P log)
    (hPQ : ∀ front o, P front o → Q front o) :
    Always Q log :=
  fun front o back heq => hPQ front o (h front o back heq)

theorem Always.of_append {P : List ω → ω → Prop} {log added : List ω} (h : Always P (log ++ added)) :
    Always P log := by
  intro front o back heq
  apply h front o (back ++ added)
  rw [heq, List.append_assoc, List.cons_append]

theorem always_concat {P : List ω → ω → Prop} {log : List ω} {o : ω} :
    Always P (log ++ [o]) ↔ Always P log ∧ P log o := by
  constructor
  · intro h
    exact ⟨h.of_append, h log o [] rfl⟩
  · rintro ⟨hlog, ho⟩ front o' back heq
    rcases List.eq_nil_or_concat back with rfl | ⟨back, last, rfl⟩
    · obtain ⟨rfl, rfl⟩ : log = front ∧ o = o' := by simpa using heq
      exact ho
    · rw [List.concat_eq_append, ← List.cons_append, ← List.append_assoc] at heq
      obtain ⟨rfl, -⟩ := List.append_inj' heq rfl
      exact hlog front o' back rfl

/-- What the log is extended by satisfies `P` wherever it may stand. -/
theorem Always.extend {A : ω → Prop} {P : List ω → ω → Prop} {log log' : List ω} (h : Always P log)
    (hlog : Extends A log log') (hP : ∀ front o, Extends A log front → A o → P front o) : Always P log' := by
  obtain ⟨added, rfl, hadded⟩ := hlog
  induction added using List.reverseRec with
  | nil =>
    rw [List.append_nil]
    exact h
  | append_singleton added o ih =>
    rw [← List.append_assoc, always_concat]
    have hfront : ∀ o ∈ added, A o := fun o ho => hadded o (List.mem_append_left _ ho)
    exact ⟨ih hfront, hP _ o ⟨added, rfl, hfront⟩ (hadded o (by simp))⟩

end tc_rdma.machine
