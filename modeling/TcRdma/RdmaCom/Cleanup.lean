import TcRdma.RdmaCom.BuildConnection
import TcRdma.RdmaCom.Loops

open tc_rdma.machine

namespace tc_rdma.rdma_com

/-- The event channels and the ids that a run has to destroy. -/
inductive CmObject where
  | channel (cm_channel : Handle)
  | id (id : CmId)
  deriving DecidableEq, Repr

/-- What an operation creates, or receives through a connect request. -/
def Op.creates (env : Env) : Op → Option CmObject
  | .call n .rdma_create_event_channel true => some (.channel n)
  | .call _ (.rdma_create_id _) true => some (.id env.new_id)
  | .obtained _ event => if event.event = .RDMA_CM_EVENT_CONNECT_REQUEST then some (.id event.id) else none
  | _ => none

/-- The outcome is not looked at. -/
def Op.destroys : Op → Option CmObject
  | .call _ (.rdma_destroy_id id) _ => some (.id id)
  | .call _ (.rdma_destroy_event_channel (some cm_channel)) _ => some (.channel cm_channel)
  | _ => none

def created (env : Env) (log : List Entry) : List CmObject := picked (Op.creates env) log

def destroyed (log : List Entry) : List CmObject := picked Op.destroys log

/-- Everything has been destroyed exactly once, and no id after a channel. -/
structure CleanedUp (env : Env) (log : List Entry) : Prop where
  once : ∀ object ∈ created env log, (destroyed log).count object = 1
  ids_first : (destroyed log).Pairwise fun before after => ∀ n id, before = .channel n → after ≠ .id id

/-- The event that was obtained last. -/
def last_event (log : List Entry) : Option RdmaCmEventType := (obtained log).getLast?.map fun p => p.2.event

/-- The connection has been opened or accepted, which is when the event loop
begins. -/
def Joined (log : List Entry) : Prop := true ∈ outcomes .handshake log

/-- The event loop has been left because of `RDMA_CM_EVENT_DISCONNECTED`. -/
def Left (log : List Entry) : Prop := Joined log ∧ last_event log = some .RDMA_CM_EVENT_DISCONNECTED

instance (log : List Entry) : Decidable (Left log) :=
  inferInstanceAs (Decidable (true ∈ outcomes .handshake log ∧ last_event log = some .RDMA_CM_EVENT_DISCONNECTED))

/-- The first call of `run` has failed. -/
def Unopened (log : List Entry) : Prop := (outcomes .setup log).head? = some false

variable {env : Env} {C : List Concern} {log log' : List Entry} {w w' : World} {conn : Fixed} {objects : List CmObject}
  {event : RdmaCmEvent} {on_event : RdmaCmEvent → Prog Status} {fresh : Prop}

theorem created_record (w : World) (op : Op) :
    created env (w.record op).log = created env w.log ++ (op.creates env).toList :=
  picked_record w op

theorem destroyed_record (w : World) (op : Op) : destroyed (w.record op).log = destroyed w.log ++ op.destroys.toList :=
  picked_record w op

theorem extends_record (w : World) {op : Op} (hop : op.concern ∈ C) :
    Extends (fun entry => entry.op.concern ∈ C) w.log (w.record op).log := Extends.one hop

theorem Op.creates_eq_none {op : Op} (hsetup : op.concern ≠ .setup) (hevent : op.concern ≠ .event) :
    op.creates env = none := by
  cases op with
  | call n c ok => cases c <;> first | rfl | exact absurd rfl hsetup
  | obtained n event => exact absurd rfl hevent
  | _ => rfl

theorem Op.destroys_eq_none {op : Op} (hreleasing : op.concern ≠ .releasing) : op.destroys = none := by
  cases op with
  | call n c ok => cases c <;> first | rfl | exact absurd rfl hreleasing
  | _ => rfl

theorem created_of_extends (h : Extends (fun entry => entry.op.concern ∈ C) log log') (hsetup : .setup ∉ C)
    (hevent : .event ∉ C) : created env log' = created env log := by
  apply picked_of_extends h
  intro op hop
  exact Op.creates_eq_none (fun heq => hsetup (heq ▸ hop)) (fun heq => hevent (heq ▸ hop))

theorem created_subset (hgrows : log <+: log') : created env log ⊆ created env log' := by
  obtain ⟨added, rfl⟩ := hgrows
  rw [created, created, picked_append]
  exact List.subset_append_left _ _

theorem destroyed_of_extends (h : Extends (fun entry => entry.op.concern ∈ C) log log') (hreleasing : .releasing ∉ C) :
    destroyed log' = destroyed log := by
  apply picked_of_extends h
  intro op hop
  exact Op.destroys_eq_none fun heq => hreleasing (heq ▸ hop)

theorem last_event_of_extends (h : Extends (fun entry => entry.op.concern ∈ C) log log') (hevent : .event ∉ C) :
    last_event log' = last_event log := by
  rw [last_event, last_event, obtained_of_extends h hevent]

theorem Joined.of_isPrefix (h : Joined log) (hgrows : log <+: log') : Joined log' := by
  obtain ⟨added, rfl⟩ := hgrows
  rw [Joined, outcomes_append]
  exact List.mem_append_left _ h

/-- What `run` has created is `objects`, and none of it has been destroyed. -/
structure Opened (env : Env) (conn : Fixed) (objects : List CmObject) (w : World) : Prop where
  fixed : w.conn.fixed = conn
  opened : (outcomes .setup w.log).head? = some true
  all : objects ⊆ created env w.log
  only : created env w.log ⊆ objects
  untouched : destroyed w.log = []

theorem Opened.extend (h : Opened env conn objects w) (hfixed : w'.conn.fixed = w.conn.fixed)
    (hlog : Extends (fun entry => entry.op.concern ∈ C) w.log w'.log) (hevent : .event ∉ C) (hsetup : .setup ∉ C)
    (hreleasing : .releasing ∉ C) : Opened env conn objects w' where
  fixed := hfixed.trans h.fixed
  opened := by rw [outcomes_of_extends hlog hsetup]; exact h.opened
  all := by rw [created_of_extends hlog hsetup hevent]; exact h.all
  only := by rw [created_of_extends hlog hsetup hevent]; exact h.only
  untouched := (destroyed_of_extends hlog hreleasing).trans h.untouched

theorem Opened.record (h : Opened env conn objects w) {op : Op} (hcreates : op.creates env = none)
    (hdestroys : op.destroys = none) : Opened env conn objects (w.record op) where
  fixed := h.fixed
  opened := by rw [World.record_log]; exact outcomes_head_append h.opened
  all := by rw [created_record, hcreates, Option.toList_none, List.append_nil]; exact h.all
  only := by rw [created_record, hcreates, Option.toList_none, List.append_nil]; exact h.only
  untouched := by rw [destroyed_record, hdestroys, Option.toList_none, List.append_nil]; exact h.untouched

theorem Opened.create (h : Opened env conn objects w) {op : Op} {object : CmObject}
    (hcreates : op.creates env = some object) (hdestroys : op.destroys = none) :
    Opened env conn (objects ++ [object]) (w.record op) where
  fixed := h.fixed
  opened := by rw [World.record_log]; exact outcomes_head_append h.opened
  all := by
    rw [created_record, hcreates, Option.toList_some]
    exact List.append_subset_of_subset_of_subset (List.Subset.trans h.all (List.subset_append_left _ _))
      (List.subset_append_right _ _)
  only := by
    rw [created_record, hcreates, Option.toList_some]
    exact List.append_subset_of_subset_of_subset (List.Subset.trans h.only (List.subset_append_left _ _))
      (List.subset_append_right _ _)
  untouched := by rw [destroyed_record, hdestroys, Option.toList_none, List.append_nil]; exact h.untouched

theorem Opened.modify_ctx (h : Opened env conn objects w) (f : ConnContext → ConnContext) :
    Opened env (w.modify_ctx f).conn.fixed objects (w.modify_ctx f) :=
  { h with fixed := rfl }

/-- The ways in which `run` ends: with nothing created, before its event loop,
after the loop was left by any other event or failure, and after it was left by
`RDMA_CM_EVENT_DISCONNECTED`. What is destroyed then depends on the ids being
`fresh`. -/
inductive RunEnds (env : Env) (fresh : Prop) (log : List Entry) : Status → Prop where
  | unopened (hopened : Unopened log) (hjoined : ¬ Joined log) (hclean : CleanedUp env log) :
      RunEnds env fresh log .FAILURE
  | early (hopened : ¬ Unopened log) (hjoined : ¬ Joined log) (hclean : ¬ CleanedUp env log) :
      RunEnds env fresh log .FAILURE
  | stopped (hopened : ¬ Unopened log) (hjoined : Joined log)
      (hlast : last_event log ≠ some .RDMA_CM_EVENT_DISCONNECTED) (hclean : fresh → ¬ CleanedUp env log) :
      RunEnds env fresh log .SUCCESS
  | left (hopened : ¬ Unopened log) (hleft : Left log) (hclean : fresh → CleanedUp env log) :
      RunEnds env fresh log .SUCCESS

/-- What was created and not destroyed is left behind. -/
theorem not_cleanedUp {object : CmObject} (hcreated : object ∈ created env log) (hdestroyed : object ∉ destroyed log) :
    ¬ CleanedUp env log := by
  intro hclean
  have hone := hclean.once object hcreated
  rw [List.count_eq_zero.mpr hdestroyed] at hone
  cases hone

/-- A run that has opened its channel and goes no further leaves it behind. -/
theorem Opened.early (h : Opened env conn objects w) (hjoined : ¬ Joined w.log) {object : CmObject}
    (hobject : object ∈ objects) : RunEnds env fresh w.log .FAILURE := by
  refine .early ?_ hjoined (not_cleanedUp (h.all hobject) (by simp [h.untouched]))
  rw [Unopened, h.opened]
  simp

end tc_rdma.rdma_com
