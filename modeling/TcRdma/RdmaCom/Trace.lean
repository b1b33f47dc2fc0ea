import TcRdma.RdmaCom.Footprint

open tc_rdma.machine

namespace tc_rdma.rdma_com

variable {β : Type} {f : Op → Option β} {C : List Concern} {concern : Concern} {log log' : List Entry}

/-- What a function of the operations picks out of a log, in its order. -/
def picked (f : Op → Option β) (log : List Entry) : List β := log.filterMap fun entry => f entry.op

theorem picked_append (log log' : List Entry) : picked f (log ++ log') = picked f log ++ picked f log' :=
  List.filterMap_append

theorem picked_record (w : World) (op : Op) : picked f (w.record op).log = picked f w.log ++ (f op).toList := by
  rw [World.record_log, picked_append]
  rfl

theorem mem_picked {b : β} : b ∈ picked f log ↔ ∃ entry ∈ log, f entry.op = some b := List.mem_filterMap

theorem picked_prefix (h : log <+: log') : picked f log <+: picked f log' := by
  obtain ⟨added, rfl⟩ := h
  rw [picked_append]
  exact List.prefix_append _ _

/-- What picks out less picks it in the same order. -/
theorem picked_sublist {g : Op → Option β} (h : ∀ op b, f op = some b → g op = some b) (log : List Entry) :
    (picked f log).Sublist (picked g log) := by
  induction log with
  | nil => exact List.Sublist.refl _
  | cons entry log ih =>
    unfold picked at ih ⊢
    rw [List.filterMap_cons, List.filterMap_cons]
    cases hf : f entry.op with
    | some b =>
      rw [h entry.op b hf]
      exact ih.cons_cons b
    | none =>
      cases g entry.op with
      | none => exact ih
      | some b => exact ih.cons b

/-- Entries with other concerns add nothing. -/
theorem picked_of_extends (h : Extends (fun entry => entry.op.concern ∈ C) log log')
    (hnone : ∀ op : Op, op.concern ∈ C → f op = none) : picked f log' = picked f log := by
  obtain ⟨added, rfl, hadded⟩ := h
  have hnothing : picked f added = [] := by
    rw [picked, List.filterMap_eq_nil_iff]
    intro entry hentry
    exact hnone entry.op (hadded entry hentry)
  rw [picked_append, hnothing, List.append_nil]

def Op.outcome (concern : Concern) : Op → Option Bool
  | .call _ c ok => if c.concern = concern then some ok else none
  | _ => none

/-- The outcomes of the calls with a concern, in their order. -/
def outcomes (concern : Concern) (log : List Entry) : List Bool := picked (Op.outcome concern) log

theorem Op.outcome_of_concern_ne {op : Op} (h : op.concern ≠ concern) : op.outcome concern = none := by
  cases op with
  | call n c ok => exact if_neg h
  | _ => rfl

theorem outcomes_append (log log' : List Entry) :
    outcomes concern (log ++ log') = outcomes concern log ++ outcomes concern log' := picked_append log log'

theorem outcomes_record_call (w : World) (n : Handle) (c : Call) (ok : Bool) :
    outcomes concern (w.record (.call n c ok)).log =
      outcomes concern w.log ++ if c.concern = concern then [ok] else [] := by
  rw [outcomes, picked_record, Op.outcome]
  split <;> rfl

theorem outcomes_of_extends (h : Extends (fun entry => entry.op.concern ∈ C) log log') (hother : concern ∉ C) :
    outcomes concern log' = outcomes concern log := by
  apply picked_of_extends h
  intro op hop
  apply Op.outcome_of_concern_ne
  rintro rfl
  exact hother hop

theorem outcomes_head_append {ok : Bool} (h : (outcomes concern log).head? = some ok) :
    (outcomes concern (log ++ log')).head? = some ok := by
  rw [outcomes_append, List.head?_append, h]
  rfl

/-- The events that have been obtained, with the numbers that name them. -/
def Op.event : Op → Option (Handle × RdmaCmEvent)
  | .obtained n event => some (n, event)
  | _ => none

def obtained (log : List Entry) : List (Handle × RdmaCmEvent) := picked Op.event log

theorem Op.event_of_concern_ne {op : Op} (h : op.concern ≠ .event) : op.event = none := by
  cases op with
  | obtained n event => exact absurd rfl h
  | _ => rfl

theorem obtained_of_extends (h : Extends (fun entry => entry.op.concern ∈ C) log log') (hother : .event ∉ C) :
    obtained log' = obtained log := by
  apply picked_of_extends h
  intro op hop
  apply Op.event_of_concern_ne
  intro heq
  exact hother (heq ▸ hop)

end tc_rdma.rdma_com
