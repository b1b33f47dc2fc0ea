import Mathlib.Data.List.Nodup
import TcRdma.RdmaCom.Handlers
import TcRdma.RdmaCom.Setup
import TcRdma.RdmaCom.Trace

open tc_rdma.machine

namespace tc_rdma.rdma_com

variable {env : Env} {events : Events} {C : List Concern} {log log' : List Entry} {w : World} {α β : Type}
  {p q r : Option Handle} {n : Handle}

def Op.acknowledges : Op → Option Handle
  | .call _ (.rdma_ack_cm_event n) _ => some n
  | _ => none

/-- The numbers of the events that have been acknowledged. -/
def acknowledged (log : List Entry) : List Handle := picked Op.acknowledges log

/-- Calls that wait until the event has been acknowledged. -/
def Op.Destroys (op : Op) (event : RdmaCmEvent) : Prop :=
  match op with
  | .call _ (.rdma_destroy_id id) _ => event.id = id
  | .call _ (.rdma_destroy_event_channel _) _ => True
  | _ => False

/-- No two events have the same number, no event is acknowledged twice, and
each is acknowledged before its id or the channel is destroyed. -/
structure Acknowledging (log : List Entry) : Prop where
  named : ((obtained log).map Prod.fst).Nodup
  once : (acknowledged log).Nodup
  before : Always (fun front entry => ∀ n event, (n, event) ∈ obtained front → entry.op.Destroys event →
    n ∈ acknowledged front) log

/-- Every event that has been obtained has been acknowledged. -/
def Settled (log : List Entry) : Prop := ∀ n event, (n, event) ∈ obtained log → n ∈ acknowledged log

theorem Op.acknowledges_of_concern_ne {op : Op} (h : op.concern ≠ .event) : op.acknowledges = none := by
  cases op with
  | call n c ok => cases c <;> first | rfl | exact absurd rfl h
  | _ => rfl

theorem acknowledged_of_extends (h : Extends (fun entry => entry.op.concern ∈ C) log log') (hother : .event ∉ C) :
    acknowledged log' = acknowledged log := by
  apply picked_of_extends h
  intro op hop
  apply Op.acknowledges_of_concern_ne
  intro heq
  exact hother (heq ▸ hop)

theorem Op.concern_of_destroys {op : Op} {event : RdmaCmEvent} (h : op.Destroys event) : op.concern = .releasing := by
  unfold Op.Destroys at h
  split at h
  · rfl
  · rfl
  · exact h.elim

/-- The state between two calls, where at most the event `p` has still to be
acknowledged. -/
structure Books (p : Option Handle) (log : List Entry) : Prop where
  acknowledging : Acknowledging log
  obtained_lt : ∀ n event, (n, event) ∈ obtained log → n < log.length
  acknowledged_lt : ∀ n ∈ acknowledged log, n < log.length
  waiting : ∀ n, p = some n → n < log.length ∧ n ∉ acknowledged log
  others : ∀ n event, (n, event) ∈ obtained log → p = some n ∨ n ∈ acknowledged log

theorem books_nil : Books none [] where
  acknowledging := ⟨List.nodup_nil, List.nodup_nil, always_nil⟩
  obtained_lt := nofun
  acknowledged_lt := nofun
  waiting := nofun
  others := nofun

theorem Books.settled (h : Books none log) : Settled log := by
  intro n event hmem
  rcases h.others n event hmem with hnone | hacked
  · cases hnone
  · exact hacked

theorem Books.not_settled {event : RdmaCmEvent} (h : Books (some n) log) (hmem : (n, event) ∈ obtained log) :
    ¬ Settled log := by
  intro hsettled
  exact (h.waiting n rfl).2 (hsettled n event hmem)

/-- Nothing is destroyed while an event waits. -/
theorem Books.extend (h : Books p log) (hlog : Extends (fun entry => entry.op.concern ∈ C) log log')
    (hevent : .event ∉ C) (hrelease : p = none ∨ .releasing ∉ C) : Books p log' := by
  have hobtained := obtained_of_extends hlog hevent
  have hacknowledged := acknowledged_of_extends hlog hevent
  have hlength : log.length ≤ log'.length := hlog.isPrefix.length_le
  refine ⟨⟨?_, ?_, ?_⟩, ?_, ?_, ?_, ?_⟩
  · rw [hobtained]
    exact h.acknowledging.named
  · rw [hacknowledged]
    exact h.acknowledging.once
  · apply h.acknowledging.before.extend hlog
    intro front entry hfront hentry n event hmem hdestroys
    rw [obtained_of_extends hfront hevent] at hmem
    rw [acknowledged_of_extends hfront hevent]
    rcases hrelease with rfl | hreleasing
    · exact h.settled n event hmem
    · rw [Op.concern_of_destroys hdestroys] at hentry
      exact absurd hentry hreleasing
  · intro n event hmem
    rw [hobtained] at hmem
    exact Nat.lt_of_lt_of_le (h.obtained_lt n event hmem) hlength
  · intro n hmem
    rw [hacknowledged] at hmem
    exact Nat.lt_of_lt_of_le (h.acknowledged_lt n hmem) hlength
  · intro n hn
    obtain ⟨hlt, hnot⟩ := h.waiting n hn
    rw [hacknowledged]
    exact ⟨Nat.lt_of_lt_of_le hlt hlength, hnot⟩
  · rw [hobtained, hacknowledged]
    exact h.others

theorem obtained_record_obtained (w : World) (n : Handle) (event : RdmaCmEvent) :
    obtained (w.record (.obtained n event)).log = obtained w.log ++ [(n, event)] := picked_record w _

theorem acknowledged_record_obtained (w : World) (n : Handle) (event : RdmaCmEvent) :
    acknowledged (w.record (.obtained n event)).log = acknowledged w.log := by
  rw [acknowledged, picked_record]
  exact List.append_nil _

theorem obtained_record_ack (w : World) (m n : Handle) (ok : Bool) :
    obtained (w.record (.call m (.rdma_ack_cm_event n) ok)).log = obtained w.log := by
  rw [obtained, picked_record]
  exact List.append_nil _

theorem acknowledged_record_ack (w : World) (m n : Handle) (ok : Bool) :
    acknowledged (w.record (.call m (.rdma_ack_cm_event n) ok)).log = acknowledged w.log ++ [n] := picked_record w _

theorem length_record (w : World) (op : Op) : (w.record op).log.length = w.log.length + 1 := by
  rw [World.record_log, List.length_append, List.length_singleton]

theorem Books.obtain (h : Books none w.log) (event : RdmaCmEvent) :
    Books (some w.log.length) (w.record (.obtained w.log.length event)).log := by
  have hfresh : w.log.length ∉ acknowledged w.log := fun hmem => Nat.lt_irrefl _ (h.acknowledged_lt _ hmem)
  constructor
  · refine ⟨?_, ?_, ?_⟩
    · rw [obtained_record_obtained, List.map_append]
      apply List.Nodup.append h.acknowledging.named (List.nodup_singleton _)
      intro n hmem hlast
      obtain ⟨⟨n', event'⟩, hobtained, rfl⟩ := List.mem_map.mp hmem
      exact Nat.ne_of_lt (h.obtained_lt n' event' hobtained) (List.mem_singleton.mp hlast)
    · rw [acknowledged_record_obtained]
      exact h.acknowledging.once
    · apply always_concat.mpr ⟨h.acknowledging.before, _⟩
      intro n other _ hdestroys
      exact hdestroys.elim
  · intro n other hmem
    rw [obtained_record_obtained, List.mem_append] at hmem
    rw [length_record]
    rcases hmem with hold | hnew
    · exact Nat.lt_succ_of_lt (h.obtained_lt n other hold)
    · cases List.mem_singleton.mp hnew
      exact Nat.lt_succ_self _
  · intro n hmem
    rw [acknowledged_record_obtained] at hmem
    rw [length_record]
    exact Nat.lt_succ_of_lt (h.acknowledged_lt n hmem)
  · intro n hn
    cases hn
    rw [acknowledged_record_obtained, length_record]
    exact ⟨Nat.lt_succ_self _, hfresh⟩
  · intro n other hmem
    rw [obtained_record_obtained, List.mem_append] at hmem
    rw [acknowledged_record_obtained]
    rcases hmem with hold | hnew
    · exact .inr (h.settled n other hold)
    · cases List.mem_singleton.mp hnew
      exact .inl rfl

theorem Books.acknowledge (h : Books (some n) w.log) (m : Handle) (ok : Bool) :
    Books none (w.record (.call m (.rdma_ack_cm_event n) ok)).log := by
  obtain ⟨hlt, hnot⟩ := h.waiting n rfl
  constructor
  · refine ⟨?_, ?_, ?_⟩
    · rw [obtained_record_ack]
      exact h.acknowledging.named
    · rw [acknowledged_record_ack]
      apply List.Nodup.append h.acknowledging.once (List.nodup_singleton _)
      intro other hmem hlast
      cases List.mem_singleton.mp hlast
      exact hnot hmem
    · apply always_concat.mpr ⟨h.acknowledging.before, _⟩
      intro other event _ hdestroys
      exact hdestroys.elim
  · intro other event hmem
    rw [obtained_record_ack] at hmem
    rw [length_record]
    exact Nat.lt_succ_of_lt (h.obtained_lt other event hmem)
  · intro other hmem
    rw [acknowledged_record_ack, List.mem_append] at hmem
    rw [length_record]
    rcases hmem with hold | hnew
    · exact Nat.lt_succ_of_lt (h.acknowledged_lt other hold)
    · cases List.mem_singleton.mp hnew
      exact Nat.lt_succ_of_lt hlt
  · nofun
  · intro other event hmem
    rw [obtained_record_ack] at hmem
    rw [acknowledged_record_ack, List.mem_append]
    rcases h.others other event hmem with hwaits | hacked
    · cases hwaits
      exact .inr (.inr (.head _))
    · exact .inr (.inl hacked)

end tc_rdma.rdma_com
