import TcRdma.Machine.Run
import TcRdma.RdmaCom.Handshake

open tc_rdma.machine

namespace tc_rdma.rdma_com

/-- A client and a server, as their constructors leave them, whose calls
succeed. -/
structure Pair where
  env : Side → Env
  conn : Side → ConnectionProc
  works : ∀ side, (env side).Works
  client_new : ∃ this params, RDMAClient.new this params = some (conn .client)
  server_new : ∃ this params, RDMAServer.new this params = some (conn .server)

/-- The events that have been delivered to each side. -/
abbrev Net := Side → List RdmaCmEvent

/-- What a side does on the events it has got, and how far it comes. -/
def Pair.behaviour (p : Pair) (net : Net) (side : Side) : Behaviour :=
  rdma_com.behaviour (p.env side) ((net side).map some) (p.conn side)

/-- The events that the side has got in consequence of this action. -/
def Net.consequences (net : Net) (side : Side) (cause : Side × Action) : Nat :=
  (net side).countP fun event => side.cause event.event = some cause

/-- Some action has not had its consequence at the side yet. -/
def Pair.pending (p : Pair) (net : Net) (side : Side) (kind : RdmaCmEventType) : Bool :=
  match side.cause kind with
  | none => false
  | some cause => decide (net.consequences side cause < (p.behaviour net cause.1).1.count cause.2)

/-- The events of the client are for its own id. -/
def Pair.addressed (p : Pair) : Side → RdmaCmEvent → Bool
  | .client, event => event.id == (p.env .client).new_id
  | .server, _ => true

/-- The connection manager delivers an event to a side that waits for one. -/
def Pair.step (p : Pair) (net : Net) (delivery : Side × RdmaCmEvent) : Option Net :=
  if (p.behaviour net delivery.1).2.waits && p.pending net delivery.1 delivery.2.event &&
      p.addressed delivery.1 delivery.2 then
    some (Function.update net delivery.1 (net delivery.1 ++ [delivery.2]))
  else none

variable {p : Pair} {net : Net} {s : Handshake}

/-- The net has brought the two as far as this. -/
structure Pair.At (p : Pair) (net : Net) (s : Handshake) : Prop where
  client : net .client = s.client.events (p.env .client).new_id
  server : net .server = s.server.events
  bounded : s.client.Bounded

theorem Pair.At.behaviour_client (h : p.At net s) : p.behaviour net .client = s.client.behaviour := by
  obtain ⟨this, params, hnew⟩ := p.client_new
  have hmachine := RDMAClient.machine_of_new hnew
  have hown : RDMAClient.Own (p.env .client) ((net .client).map some) := by
    rw [h.client]
    simp [RDMAClient.Own, ClientStage.events]
  rw [Pair.behaviour, behaviour_eq_of_wp .client (by simp [ConnectionProc.is_server, hmachine])
    (RDMAClient.wp_run_works (p.works .client) hmachine hown rfl), h.client]
  exact ClientStage.protocol_eq h.bounded _

theorem Pair.At.behaviour_server (h : p.At net s) : p.behaviour net .server = s.server.behaviour := by
  obtain ⟨this, params, hnew⟩ := p.server_new
  have hmachine := RDMAServer.machine_of_new hnew
  rw [Pair.behaviour, behaviour_eq_of_wp .server (by simp [ConnectionProc.is_server, hmachine])
    (RDMAServer.wp_run_works (p.works .server) (p.conn .server) rfl), h.server]
  exact ServerStage.protocol_eq s.server _

theorem Pair.at_start (p : Pair) : p.At (fun _ => []) ⟨.resolving 0, .listening⟩ := ⟨rfl, rfl, Nat.zero_le _⟩

theorem Pair.At.behaviour (h : p.At net s) (side : Side) : p.behaviour net side = s.behaviour side := by
  cases side with
  | client => exact h.behaviour_client
  | server => exact h.behaviour_server

theorem Pair.At.consequences (h : p.At net s) (side : Side) (cause : Side × Action) :
    net.consequences side cause = (s.kinds side).countP fun kind => side.cause kind = some cause := by
  unfold Net.consequences
  cases side with
  | client => rw [h.client, ClientStage.countP_events, Handshake.kinds]
  | server =>
    rw [h.server, Handshake.kinds, List.countP_map]
    rfl

/-- What can be delivered is what is due. -/
theorem Pair.At.pending_iff (h : p.At net s) (side : Side) (kind : RdmaCmEventType) :
    p.pending net side kind = true ↔ s.Due side kind := by
  unfold Pair.pending Handshake.Due
  cases side.cause kind with
  | none => simp
  | some cause => simp [h.consequences, h.behaviour]

/-- An event is delivered exactly when it takes the handshake further. -/
theorem Pair.At.step_iff (h : p.At net s) (hagrees : s.Agrees) {delivery : Side × RdmaCmEvent} {after : Net} :
    p.step net delivery = some after ↔ ∃ next, s.step delivery = some next ∧ p.addressed delivery.1 delivery.2 = true ∧
      after = Function.update net delivery.1 (net delivery.1 ++ [delivery.2]) := by
  obtain ⟨side, event⟩ := delivery
  have hdue : (p.behaviour net side).2.waits = true ∧ p.pending net side event.event = true ↔
      (s.step (side, event)).isSome = true := by
    rw [h.behaviour, h.pending_iff]
    constructor
    · rintro ⟨hwaits, hpending⟩
      exact (hagrees.due_iff hwaits event).mp hpending
    · intro hstep
      have hwaits := Handshake.waits_of_step hstep
      exact ⟨hwaits, (hagrees.due_iff hwaits event).mpr hstep⟩
  unfold Pair.step
  constructor
  · intro hstep
    split at hstep
    · rename_i hall
      simp only [Bool.and_eq_true] at hall
      cases hstep
      obtain ⟨next, hnext⟩ := Option.isSome_iff_exists.mp (hdue.mp hall.1)
      exact ⟨next, hnext, hall.2, rfl⟩
    · cases hstep
  · rintro ⟨next, hnext, haddressed, rfl⟩
    have hall := hdue.mpr (Option.isSome_iff_exists.mpr ⟨next, hnext⟩)
    rw [if_pos]
    simp only [Bool.and_eq_true]
    exact ⟨hall, haddressed⟩

theorem Pair.At.step (h : p.At net s) (hagrees : s.Agrees) {delivery : Side × RdmaCmEvent} {after : Net}
    (hstep : p.step net delivery = some after) :
    ∃ next, s.step delivery = some next ∧ p.At after next ∧ next.Agrees := by
  obtain ⟨next, hnext, haddressed, rfl⟩ := (h.step_iff hagrees).mp hstep
  refine ⟨next, hnext, ?_, hagrees.step hnext⟩
  obtain ⟨side, event⟩ := delivery
  cases side with
  | client =>
    obtain ⟨told, htell, rfl⟩ := Option.map_eq_some_iff.mp hnext
    have hmove := ClientStage.tell_move htell
    have hid : event.id = (p.env .client).new_id := by simpa [Pair.addressed] using haddressed
    refine ⟨?_, ?_, hmove.bounded h.bounded⟩
    · simp [hmove.events, h.client, ← hid]
    · simp [h.server]
  | server =>
    obtain ⟨told, htell, rfl⟩ := Option.map_eq_some_iff.mp hnext
    refine ⟨?_, ?_, h.bounded⟩
    · simp [h.client]
    · simp [(ServerStage.tell_move htell).events, h.server]

theorem Pair.at_of_run {deliveries : List (Side × RdmaCmEvent)}
    (hrun : run p.step (fun _ => []) deliveries = some net) :
    ∃ s, p.At net s ∧ s.Agrees := by
  refine run_invariant (I := fun net => ∃ s, p.At net s ∧ s.Agrees) ?_ ⟨_, p.at_start, Handshake.agrees_start⟩ hrun
  rintro net delivery after ⟨s, hat, hagrees⟩ hstep
  obtain ⟨next, -, hnext⟩ := hat.step hagrees hstep
  exact ⟨next, hnext⟩

theorem Pair.At.length_le (h : p.At net s) : (net .client).length + (net .server).length ≤ NUM_OF_RETRIES + 4 := by
  have hclient : (net .client).length = s.client.kinds.length := by rw [h.client, ClientStage.events, List.length_map]
  have hbound : s.client.kinds.length ≤ NUM_OF_RETRIES + 2 := by
    have hbounded := h.bounded
    cases hstage : s.client <;> rw [hstage] at hbounded <;>
      simp [ClientStage.kinds, ClientStage.Bounded] at hbounded ⊢ <;> omega
  have hserver : (net .server).length ≤ 2 := by
    rw [h.server]
    cases s.server <;> simp [ServerStage.events]
  omega

theorem Pair.step_length {delivery : Side × RdmaCmEvent} {after : Net} (hstep : p.step net delivery = some after) :
    (after .client).length + (after .server).length = (net .client).length + (net .server).length + 1 := by
  unfold Pair.step at hstep
  split at hstep
  · cases hstep
    obtain ⟨side, event⟩ := delivery
    cases side <;> simp <;> omega
  · cases hstep

end tc_rdma.rdma_com
