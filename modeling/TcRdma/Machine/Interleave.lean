import TcRdma.Machine.Log

namespace tc_rdma.machine

variable {ι ω : Type} [DecidableEq ι]

/-- What one party has recorded in the common log of several. -/
def part (i : ι) (log : List (ι × ω)) : List ω := log.filterMap fun entry => if entry.1 = i then some entry.2 else none

theorem part_append (i : ι) (log log' : List (ι × ω)) : part i (log ++ log') = part i log ++ part i log' :=
  List.filterMap_append

theorem part_cons_self (i : ι) (o : ω) (log : List (ι × ω)) : part i ((i, o) :: log) = o :: part i log := by
  simp [part]

/-- The entries of one party. -/
def tag (i : ι) (log : List ω) : List (ι × ω) := log.map fun o => (i, o)

theorem part_tag_self (i : ι) (log : List ω) : part i (tag i log) = log := by
  induction log with
  | nil => rfl
  | cons o log ih =>
    rw [tag, List.map_cons, part_cons_self]
    exact congrArg _ ih

theorem part_tag_of_ne {i j : ι} (hne : j ≠ i) (log : List ω) : part i (tag j log) = [] := by
  rw [part, List.filterMap_eq_nil_iff]
  intro entry hmem
  obtain ⟨o, -, rfl⟩ := List.mem_map.mp hmem
  exact if_neg hne

/-- Each party has come some way along its own log, in any order. -/
def Interleaves (logs : ι → List ω) (log : List (ι × ω)) : Prop := ∀ i, part i log <+: logs i

variable {logs : ι → List ω} {front back : List (ι × ω)} {i : ι} {o : ω}

theorem Interleaves.of_append (h : Interleaves logs (front ++ back)) : Interleaves logs front := by
  intro j
  have hgrows := h j
  rw [part_append] at hgrows
  exact (List.prefix_append _ _).trans hgrows

/-- What holds throughout a party's own log holds of its part so far. -/
theorem Interleaves.always_at {P : List ω → ω → Prop} (h : Interleaves logs (front ++ (i, o) :: back))
    (halways : Always P (logs i)) : P (part i front) o := by
  obtain ⟨added, hadded⟩ := h i
  rw [part_append, part_cons_self] at hadded
  apply halways (part i front) o (part i back ++ added)
  rw [← hadded, List.append_assoc, List.cons_append]

/-- What a party has recorded in the front of the log has come before whatever
only the rest of it contains. -/
theorem always_after {P : ι × ω → Prop} {Q : ω → Prop} (hnone : ∀ entry ∈ front, ¬ P entry)
    (hseen : ∃ o ∈ part i front, Q o) (back : List (ι × ω)) :
    Always (fun before entry => P entry → ∃ o ∈ part i before, Q o) (front ++ back) := by
  have hfront : Extends (fun entry => ¬ P entry) [] front := ⟨front, rfl, hnone⟩
  have hback : Extends (fun _ => True) front (front ++ back) := ⟨back, rfl, fun _ _ => trivial⟩
  refine (Always.extend always_nil hfront ?_).extend hback ?_
  · intro _ entry _ hnot hP
    exact absurd hP hnot
  · rintro _ entry ⟨added, rfl, -⟩ - -
    obtain ⟨o, ho, hQ⟩ := hseen
    refine ⟨o, ?_, hQ⟩
    rw [part_append]
    exact List.mem_append_left _ ho

theorem exists_split_of_mem_part (h : o ∈ part i front) : ∃ before after, front = before ++ (i, o) :: after := by
  obtain ⟨⟨j, o'⟩, hmem, hsome⟩ := List.mem_filterMap.mp h
  by_cases heq : j = i
  · subst heq
    obtain rfl : o' = o := by simpa using hsome
    exact List.append_of_mem hmem
  · simp [heq] at hsome

end tc_rdma.machine
