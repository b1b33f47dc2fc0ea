import Mathlib.Data.List.Perm.Basic
import TcRdma.Machine.Log

namespace tc_rdma.machine

variable {ω ο : Type}

/-- Which object an entry of a log creates, and which it destroys. -/
structure Ledger (ω ο : Type) where
  creates : ω → Option ο
  destroys : ω → Option ο
  exclusive : ∀ x o, creates x = some o → destroys x = none

variable (L : Ledger ω ο)

def Ledger.created (log : List ω) : List ο := log.filterMap L.creates

def Ledger.destroyed (log : List ω) : List ο := log.filterMap L.destroys

theorem Ledger.created_append (log log' : List ω) : L.created (log ++ log') = L.created log ++ L.created log' :=
  List.filterMap_append

theorem Ledger.destroyed_append (log log' : List ω) :
    L.destroyed (log ++ log') = L.destroyed log ++ L.destroyed log' := List.filterMap_append

/-- Everything that was created has been destroyed as often. -/
def Ledger.Closed (log : List ω) : Prop := (L.destroyed log).Perm (L.created log)

variable [DecidableEq ο]

/-- The object has been created more often than it has been destroyed. -/
def Ledger.Live (log : List ω) (o : ο) : Prop := (L.destroyed log).count o < (L.created log).count o

/-- An object is destroyed only while it is live, so it is never destroyed
more often than it was created. -/
def Ledger.Sound (log : List ω) : Prop := Always (fun front x => ∀ o, L.destroys x = some o → L.Live front o) log

/-- Nothing is created while something is live. -/
def Ledger.OneAtATime (log : List ω) : Prop :=
  Always (fun front x => (L.creates x).isSome → ∀ o, ¬ L.Live front o) log

/-- A sound log, and the objects that are live at its end. -/
structure Ledger.Holding (log : List ω) (os : List ο) : Prop where
  sound : L.Sound log
  left : (L.created log).Perm (L.destroyed log ++ os)

variable {L} {log log' : List ω} {os os' : List ο} {x : ω} {o : ο} {o? : Option ο}

theorem Ledger.holding_nil (L : Ledger ω ο) : L.Holding [] [] := ⟨always_nil, .refl _⟩

theorem Ledger.Holding.perm (h : L.Holding log os) (hperm : os.Perm os') : L.Holding log os' :=
  ⟨h.sound, h.left.trans (hperm.append_left _)⟩

theorem Ledger.Holding.live_iff (h : L.Holding log os) : L.Live log o ↔ o ∈ os := by
  have hcount := h.left.count_eq o
  rw [List.count_append] at hcount
  rw [Ledger.Live, hcount, ← List.count_pos_iff]
  omega

theorem Ledger.Holding.closed_iff (h : L.Holding log os) : L.Closed log ↔ os = [] := by
  constructor
  · intro hclosed
    have hlength := h.left.length_eq
    rw [List.length_append, hclosed.length_eq] at hlength
    exact List.length_eq_zero_iff.mp (by omega)
  · rintro rfl
    have hleft := h.left
    rw [List.append_nil] at hleft
    exact hleft.symm

theorem Ledger.Holding.create (h : L.Holding log os) (hx : L.creates x = some o) :
    L.Holding (log ++ [x]) (o :: os) := by
  have hkeeps := L.exclusive x o hx
  constructor
  · apply always_concat.mpr ⟨h.sound, _⟩
    intro other hother
    rw [hkeeps] at hother
    cases hother
  · have hcreated : L.created (log ++ [x]) = L.created log ++ [o] := by
      simp [Ledger.created, hx]
    have hdestroyed : L.destroyed (log ++ [x]) = L.destroyed log := by
      simp [Ledger.destroyed, hkeeps]
    rw [hcreated, hdestroyed]
    exact ((List.perm_append_singleton _ _).trans (h.left.cons o)).trans List.perm_middle.symm

theorem Ledger.Holding.destroy (h : L.Holding log (o :: os)) (hx : L.destroys x = some o) :
    L.Holding (log ++ [x]) os := by
  have hkeeps : L.creates x = none := by
    cases hcreates : L.creates x with
    | none => rfl
    | some other =>
      rw [L.exclusive x other hcreates] at hx
      cases hx
  constructor
  · apply always_concat.mpr ⟨h.sound, _⟩
    intro other hother
    rw [hx] at hother
    cases hother
    exact h.live_iff.mpr (.head _)
  · have hcreated : L.created (log ++ [x]) = L.created log := by
      simp [Ledger.created, hkeeps]
    have hdestroyed : L.destroyed (log ++ [x]) = L.destroyed log ++ [o] := by
      simp [Ledger.destroyed, hx]
    rw [hcreated, hdestroyed, List.append_assoc]
    exact h.left

theorem Ledger.Holding.destroy_toList (h : L.Holding log (o?.toList ++ os)) {f : ο → ω}
    (hf : ∀ o, L.destroys (f o) = some o) : L.Holding (log ++ o?.toList.map f) os := by
  cases o? with
  | none =>
    rw [Option.toList_none, List.map_nil, List.append_nil]
    exact h
  | some o => exact Ledger.Holding.destroy h (hf o)

/-- The entry has nothing to do with these objects. -/
def Ledger.Ignores (L : Ledger ω ο) (x : ω) : Prop := L.creates x = none ∧ L.destroys x = none

theorem Ledger.Holding.ignore (h : L.Holding log os) (hx : L.Ignores x) : L.Holding (log ++ [x]) os := by
  constructor
  · apply always_concat.mpr ⟨h.sound, _⟩
    intro other hother
    rw [hx.2] at hother
    cases hother
  · have hcreated : L.created (log ++ [x]) = L.created log := by
      simp [Ledger.created, hx.1]
    have hdestroyed : L.destroyed (log ++ [x]) = L.destroyed log := by
      simp [Ledger.destroyed, hx.2]
    rw [hcreated, hdestroyed]
    exact h.left

theorem Ledger.Holding.extend {A : ω → Prop} (h : L.Holding log os) (hlog : Extends A log log')
    (hignores : ∀ x, A x → L.Ignores x) : L.Holding log' os := by
  obtain ⟨added, rfl, hadded⟩ := hlog
  induction added using List.reverseRec with
  | nil =>
    rw [List.append_nil]
    exact h
  | append_singleton added x ih =>
    rw [← List.append_assoc]
    exact (ih fun y hy => hadded y (List.mem_append_left _ hy)).ignore (hignores x (hadded x (by simp)))

/-- Logs with objects of their own, one after the other. -/
theorem Ledger.Holding.append (h : L.Holding log os) (h' : L.Holding log' os') :
    L.Holding (log ++ log') (os' ++ os) := by
  constructor
  · rintro front x back heq o hx
    rcases List.append_eq_append_iff.mp heq with ⟨rest, rfl, hrest⟩ | ⟨rest, rfl, hrest⟩
    · have hlive := h'.sound rest x back hrest o hx
      have hcount := h.left.count_eq o
      rw [List.count_append] at hcount
      rw [Ledger.Live] at hlive ⊢
      rw [L.created_append, L.destroyed_append, List.count_append, List.count_append]
      omega
    · cases rest with
      | nil =>
        have hlive := h'.sound [] x back hrest.symm o hx
        simp [Ledger.Live, Ledger.created, Ledger.destroyed] at hlive
      | cons y rest =>
        obtain ⟨rfl, -⟩ := List.cons.inj hrest
        exact h.sound front x rest rfl o hx
  · rw [L.created_append, L.destroyed_append]
    have hleft := h.left.append h'.left
    refine hleft.trans ?_
    rw [List.append_assoc, List.append_assoc]
    apply List.Perm.append_left
    exact (List.perm_append_comm).trans (List.append_assoc _ _ _ ▸ .refl _)

/-- The same objects in a log that has other entries as well. -/
def Ledger.comap {ω' : Type} (L : Ledger ω ο) (f : ω' → Option ω) : Ledger ω' ο where
  creates x := (f x).bind L.creates
  destroys x := (f x).bind L.destroys
  exclusive := by
    intro x o hcreates
    obtain ⟨y, hy, hcreates⟩ := Option.bind_eq_some_iff.mp hcreates
    rw [hy, Option.bind_some]
    exact L.exclusive y o hcreates

theorem Ledger.Holding.comap_map {ω' : Type} {f : ω' → Option ω} {g : ω → ω'} (h : L.Holding log os)
    (hg : ∀ x, f (g x) = some x) : (L.comap f).Holding (log.map g) os := by
  have hcreated : ∀ log, (L.comap f).created (log.map g) = L.created log := by
    intro log
    rw [Ledger.created, List.filterMap_map, Ledger.created]
    congr 1
    funext x
    simp [Ledger.comap, hg]
  have hdestroyed : ∀ log, (L.comap f).destroyed (log.map g) = L.destroyed log := by
    intro log
    rw [Ledger.destroyed, List.filterMap_map, Ledger.destroyed]
    congr 1
    funext x
    simp [Ledger.comap, hg]
  constructor
  · rintro front x back heq o hx
    obtain ⟨front', rest, rfl, rfl, hrest⟩ := List.map_eq_append_iff.mp heq
    obtain ⟨x', back', rfl, rfl, -⟩ := List.map_eq_cons_iff.mp hrest
    rw [Ledger.Live, hcreated, hdestroyed]
    apply h.sound front' x' back' rfl
    simpa [Ledger.comap, hg] using hx
  · rw [hcreated, hdestroyed]
    exact h.left

/-- A sound log that creates one object at a time holds at most one. -/
theorem Ledger.Sound.holds_one (hsound : L.Sound log) (hone : L.OneAtATime log) :
    ∃ os, L.Holding log os ∧ os.length ≤ 1 := by
  induction log using List.reverseRec with
  | nil => exact ⟨[], L.holding_nil, Nat.zero_le _⟩
  | append_singleton log x ih =>
    obtain ⟨hsound, hdestroys⟩ := always_concat.mp hsound
    obtain ⟨hone, hcreates⟩ := always_concat.mp hone
    obtain ⟨os, h, hlength⟩ := ih hsound hone
    cases hx : L.creates x with
    | some o =>
      have hnone : os = [] := by
        apply List.eq_nil_iff_forall_not_mem.mpr
        intro other hmem
        exact hcreates (by rw [hx]; rfl) other (h.live_iff.mpr hmem)
      subst hnone
      exact ⟨[o], h.create hx, Nat.le_refl _⟩
    | none =>
      cases hx' : L.destroys x with
      | none => exact ⟨os, h.ignore ⟨hx, hx'⟩, hlength⟩
      | some o =>
        have hmem : o ∈ os := h.live_iff.mp (hdestroys o hx')
        refine ⟨os.erase o, (h.perm (List.perm_cons_erase hmem)).destroy hx', ?_⟩
        exact Nat.le_trans List.length_erase_le hlength

/-- At every moment at most one object is live. -/
theorem Ledger.Sound.created_le (hsound : L.Sound log) (hone : L.OneAtATime log) {front : List ω}
    (hfront : front <+: log) : (L.created front).length ≤ (L.destroyed front).length + 1 := by
  obtain ⟨back, rfl⟩ := hfront
  obtain ⟨os, h, hlength⟩ := Ledger.Sound.holds_one (Always.of_append hsound) (Always.of_append hone)
  have htotal := h.left.length_eq
  rw [List.length_append] at htotal
  omega

end tc_rdma.machine
