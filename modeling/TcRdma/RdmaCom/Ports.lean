import Mathlib.Algebra.Group.Int.Defs
import TcRdma.RdmaCom.Loops
import TcRdma.RdmaCom.Trace

open tc_rdma.machine

namespace tc_rdma.rdma_com

variable {env : Env} {events : Events} {port : Int} {w w' : World} {C : List Concern}

/-- The port of the address that a call binds or resolves. -/
def Op.sin_port : Op → Option UInt16
  | .call _ (.rdma_bind_addr _ sin_port) _ => some sin_port
  | .call _ (.rdma_resolve_addr _ sin_port _) _ => some sin_port
  | _ => none

def sin_ports (log : List Entry) : List UInt16 := picked Op.sin_port log

/-- All ports that were bound or resolved are the low half of the parameter. -/
structure World.OnPort (port : Int) (w : World) : Prop where
  server_port : w.conn.conn_params.env.server_port = port
  sin_ports : ∀ sin_port ∈ sin_ports w.log, sin_port = UInt16.ofInt port

theorem World.OnPort.record (h : w.OnPort port) {op : Op}
    (hop : ∀ sin_port, op.sin_port = some sin_port → sin_port = UInt16.ofInt port) :
    (w.record op).OnPort port where
  server_port := h.server_port
  sin_ports := by
    intro sin_port hmem
    rw [rdma_com.sin_ports, picked_record] at hmem
    rcases List.mem_append.mp hmem with hmem | hmem
    · exact h.sin_ports sin_port hmem
    · exact hop sin_port (by simpa using hmem)

theorem World.OnPort.other (h : w.OnPort port) {op : Op} (hop : op.sin_port = none) : (w.record op).OnPort port := by
  apply h.record
  intro sin_port hsome
  rw [hop] at hsome
  cases hsome

theorem Op.sin_port_eq_none {op : Op} (h : op.concern ≠ .setup ∧ op.concern ≠ .resolution) : op.sin_port = none := by
  cases op with
  | call n c ok => cases c <;> first | rfl | simp [Op.concern, Call.concern] at h
  | _ => rfl

theorem preserves_of_leaves {α : Type} {x : Prog α} (hx : Leaves C x)
    (hC : ∀ c ∈ C, c ≠ .setup ∧ c ≠ .resolution) : Preserves (World.OnPort port) x := by
  have hkeeps : ∀ {w w'}, Footprint C w w' → w.OnPort port → w'.OnPort port := by
    intro w w' hfoot h
    have hsame : sin_ports w'.log = sin_ports w.log :=
      picked_of_extends hfoot.log fun op hop => Op.sin_port_eq_none (hC _ hop)
    refine ⟨?_, by rw [hsame]; exact h.sin_ports⟩
    rw [← h.server_port]
    exact congrArg (fun fixed => fixed.env.server_port) hfoot.fixed
  intro w h
  exact wp_mono (hx w) (fun _ _ hfoot => hkeeps hfoot h) fun _ _ hfoot => hkeeps hfoot.2 h

theorem preserves_invoke {c : Call}
    (hc : ∀ n ok sin_port, (Op.call n c ok).sin_port = some sin_port → sin_port = UInt16.ofInt port) :
    Preserves (World.OnPort port) (invoke env c) :=
  fun _ h => wp_invoke_of fun ok => h.record (hc _ ok)

theorem preserves_other {c : Call} (hc : ∀ n ok, (Op.call n c ok).sin_port = none) :
    Preserves (World.OnPort port) (invoke env c) :=
  fun _ h => wp_invoke_of fun ok => h.other (hc _ ok)

theorem preserves_record {op : Op} (hop : op.sin_port = none) : Preserves (World.OnPort port) (record op) :=
  fun _ h => h.other hop

/-- A message and what is returned after it. -/
theorem preserves_report {α : Type} (text : String) (value : α) :
    Preserves (World.OnPort port) (do record (.printed text); return value) :=
  (preserves_record rfl).bind fun _ => preserves_pure value

theorem preserves_modify_ctx (f : ConnContext → ConnContext) : Preserves (World.OnPort port) (modify_ctx f) :=
  fun _ h => ⟨h.server_port, h.sin_ports⟩

theorem preserves_load {α : Type} {member : Member} {cell : ConnContext → Cell α} :
    Preserves (World.OnPort port) (load member cell) :=
  fun _ h => wp_load_any (fun _ _ => h) h

/-- The port that is found is the low half of the parameter. -/
theorem wp_resolve_port_onPort (h : w.OnPort port) (servername : Option String) :
    wp (resolve_port env servername)
      (fun found w' => w'.OnPort port ∧ ∀ sin_port, found = some sin_port → sin_port = UInt16.ofInt port)
      (fun _ w' => w'.OnPort port) w := by
  unfold resolve_port
  rw [wp_bind, wp_get, h.server_port]
  have hfound : wp (check_add_port env port servername) (fun _ => World.OnPort port) (fun _ _ => False) w :=
    wp_check_add_port (fun _ _ _ h => h.other rfl) (fun _ _ _ h => h.other rfl) (fun _ _ h => h.other rfl) h
  apply wp_bind_of hfound _ (fun _ _ h => h.elim)
  intro ret w₁ h₁
  refine wp_if_failure (fun _ => ⟨h₁.other rfl, by simp⟩) fun _ => wp_invoke_isNone ⟨h₁.other rfl, by simp⟩ ?_
  refine ⟨h₁.other rfl, ?_⟩
  rintro sin_port ⟨⟩
  rfl

theorem preserves_obtain_event (event : RdmaCmEvent) : Preserves (World.OnPort port) (obtain_event event) :=
  preserves_of_leaves (obtain_event_leaves event) (by simp)

theorem preserves_ack (n : Handle) : Preserves (World.OnPort port) (rdma_ack_cm_event env n) :=
  preserves_of_leaves (rdma_ack_cm_event_leaves n) (by simp)

/-- A test of a call and what follows it on both ways. -/
theorem preserves_isNone {α : Type} {c : Call} {x y : Prog α} (hc : Preserves (World.OnPort port) (invoke env c))
    (hx : Preserves (World.OnPort port) x) (hy : Preserves (World.OnPort port) y) :
    Preserves (World.OnPort port) (do if (← invoke env c).isNone then x else y) :=
  hc.bind fun _ => hx.ite hy _

theorem preserves_if_failure {α : Type} {x : Prog Status} {y z : Prog α} (hx : Preserves (World.OnPort port) x)
    (hy : Preserves (World.OnPort port) y) (hz : Preserves (World.OnPort port) z) :
    Preserves (World.OnPort port) (do if (← x) = .FAILURE then y else z) :=
  hx.bind fun _ => hy.ite hz _

/-- The server binds the port that it has resolved. -/
theorem RDMAServer.listen_preserves : Preserves (World.OnPort port) (RDMAServer.listen env) := by
  apply (preserves_other fun _ _ => rfl).bind
  intro cm_channel
  apply (preserves_modify_ctx _).bind
  intro _
  cases cm_channel with
  | none => exact preserves_pure _
  | some cm_channel =>
    apply preserves_isNone (preserves_other fun _ _ => rfl) (preserves_pure _)
    apply (preserves_modify_ctx _).bind
    intro _ w h
    apply wp_bind_of (wp_resolve_port_onPort h none) _ (fun _ _ h => h)
    rintro found w₁ ⟨h₁, hfound⟩
    cases found with
    | none => exact h₁
    | some sin_port =>
      have hport : sin_port = UInt16.ofInt port := hfound sin_port rfl
      refine (preserves_other fun _ _ => rfl).bind (fun _ => ?_) w₁ h₁
      apply preserves_load.bind
      intro cm_id_control
      apply preserves_isNone (preserves_invoke _) (preserves_report _ _)
      · exact preserves_get.bind fun _ => preserves_isNone (preserves_other fun _ _ => rfl)
          (preserves_report _ _) (preserves_pure _)
      · rintro n ok other ⟨⟩
        exact hport

theorem working_on_cm_event_preserves {site : Site} {on_event : RdmaCmEvent → Prog Status}
    (hhandler : ∀ event, Preserves (World.OnPort port) (on_event event)) (events : Events) :
    Preserves (World.OnPort port) (working_on_cm_event env site on_event events) := by
  induction events with
  | nil => exact preserves_throw _
  | cons head rest ih =>
    cases head with
    | none => exact preserves_record rfl
    | some event =>
      have hhandled : Preserves (World.OnPort port) (handle_cm_event env on_event event) :=
        (preserves_obtain_event event).bind fun n => (preserves_ack n).bind fun _ => hhandler event
      exact preserves_if_failure hhandled (preserves_pure ()) ih

theorem RDMAServer.run_preserves (env : Env) (events : Events) :
    Preserves (World.OnPort port) (RDMAServer.run env events) := by
  unfold RDMAServer.run
  apply preserves_if_failure RDMAServer.listen_preserves (preserves_pure _)
  cases events with
  | nil => exact preserves_throw _
  | cons head rest =>
    cases head with
    | none => exact (preserves_record rfl).bind fun _ => preserves_report _ _
    | some event =>
      have hrequest : Preserves (World.OnPort port) (RDMAServer.on_connect_request env event.id) :=
        preserves_of_leaves (RDMAServer.on_connect_request_leaves event.id) (by simp)
      have hfirst : Preserves (World.OnPort port) (RDMAServer.first_event env event) := by
        apply (preserves_obtain_event event).bind
        intro n
        apply Preserves.ite (preserves_report _ _)
        exact (preserves_modify_ctx _).bind fun _ => preserves_if_failure hrequest (preserves_pure _)
          ((preserves_ack n).bind fun _ => preserves_pure _)
      apply preserves_if_failure hfirst (preserves_pure _)
      apply (working_on_cm_event_preserves _ rest).bind
      · exact fun _ => preserves_of_leaves RDMAServer.close_leaves (by simp)
      · exact fun event => preserves_of_leaves (RDMAServer.on_event_leaves event) (by simp)

theorem RDMAClient.create_onPort {w : World} (h : w.OnPort port) :
    wp (RDMAClient.create env)
      (fun found w' => w'.OnPort port ∧ ∀ sin_port, found = some sin_port → sin_port = UInt16.ofInt port)
      (fun _ w' => w'.OnPort port) w := by
  apply wp_bind_of (preserves_other (fun _ _ => rfl) w h) _ (fun _ _ h => h)
  intro cm_channel w₁ h₁
  apply wp_bind_of (preserves_modify_ctx _ w₁ h₁) _ (fun _ _ h => h)
  intro _ w₂ h₂
  cases cm_channel with
  | none => exact ⟨h₂, by simp⟩
  | some cm_channel =>
    apply wp_bind_of (preserves_other (fun _ _ => rfl) w₂ h₂) _ (fun _ _ h => h)
    intro created w₃ h₃
    rw [wp_ite]
    refine ⟨fun _ => ⟨h₃, by simp⟩, fun _ => ?_⟩
    apply wp_bind_of (preserves_modify_ctx _ w₃ h₃) _ (fun _ _ h => h)
    intro _ w₄ h₄
    rw [wp_bind, wp_get]
    exact wp_resolve_port_onPort h₄ _

theorem RDMAClient.on_addr_resolved_preserves (id : CmId) :
    Preserves (World.OnPort port) (RDMAClient.on_addr_resolved env id) := by
  apply preserves_get.bind
  intro w
  apply Preserves.bind (preserves_of_leaves (leaves_check (C := []) _ .assertion_machine (by simp [Halt.Waits])) (by simp))
  intro _
  apply (preserves_of_leaves (build_connection_leaves id) (by simp)).bind
  intro _
  exact preserves_isNone (preserves_other fun _ _ => rfl)
    (preserves_report _ _) (preserves_pure _)

/-- Each pass of the first loop resolves the port that was found. -/
theorem RDMAClient.resolve_addr_preserves (num_of_retry : Nat) (events : Events) :
    Preserves (World.OnPort port) (RDMAClient.resolve_addr env (UInt16.ofInt port) num_of_retry events) := by
  induction num_of_retry generalizing events with
  | zero => exact preserves_report _ _
  | succ num_of_retry ih =>
    unfold RDMAClient.resolve_addr
    apply preserves_load.bind
    intro cm_id
    have hasked : Preserves (World.OnPort port)
        (invoke env (.rdma_resolve_addr cm_id (UInt16.ofInt port) RDMA_TIMEOUT_IN_MS)) := by
      apply preserves_invoke
      rintro n ok sin_port ⟨⟩
      rfl
    apply preserves_isNone hasked (preserves_report _ _)
    cases events with
    | nil => exact preserves_throw _
    | cons head rest =>
      cases head with
      | none => exact (preserves_record rfl).bind fun _ => preserves_report _ _
      | some event =>
        apply (preserves_obtain_event event).bind
        intro n
        apply Preserves.ite ((preserves_ack n).bind fun _ => ih rest)
        apply Preserves.ite ((preserves_ack n).bind fun _ => preserves_pure _)
        apply preserves_load.bind
        intro cm_id
        refine (preserves_modify_ctx _).bind fun _ => (preserves_ack n).bind fun _ => ?_
        exact preserves_if_failure (RDMAClient.on_addr_resolved_preserves event.id) (preserves_pure _)
          (preserves_pure _)

theorem RDMAClient.resolve_route_preserves (num_of_retry : Nat) (events : Events) :
    Preserves (World.OnPort port) (RDMAClient.resolve_route env num_of_retry events) := by
  induction num_of_retry generalizing events with
  | zero => exact preserves_report _ _
  | succ num_of_retry ih =>
    unfold RDMAClient.resolve_route
    cases events with
    | nil => exact preserves_throw _
    | cons head rest =>
      cases head with
      | none => exact (preserves_record rfl).bind fun _ => preserves_report _ _
      | some event =>
        have hconnect : Preserves (World.OnPort port) (RDMAClient.on_route_resolved env event.id) :=
          preserves_of_leaves (RDMAClient.on_route_resolved_leaves event.id) (by simp)
        apply (preserves_obtain_event event).bind
        intro n
        apply Preserves.ite ((preserves_ack n).bind fun _ => ih rest)
        apply Preserves.ite
        · exact (preserves_record rfl).bind fun _ => (preserves_ack n).bind fun _ => preserves_pure _
        · exact (preserves_ack n).bind fun _ => preserves_if_failure hconnect (preserves_pure _) (preserves_pure _)

theorem RDMAClient.on_event_preserves (event : RdmaCmEvent) :
    Preserves (World.OnPort port) (RDMAClient.on_event env event) := by
  unfold RDMAClient.on_event
  split
  · exact RDMAClient.on_addr_resolved_preserves event.id
  · exact preserves_of_leaves (RDMAClient.on_route_resolved_leaves event.id) (by simp)
  · exact preserves_of_leaves on_connection_leaves (by simp)
  · exact preserves_of_leaves (on_disconnect_leaves event.id) (by simp)
  · exact preserves_pure _

theorem RDMAClient.run_preserves (env : Env) (events : Events) :
    Preserves (World.OnPort port) (RDMAClient.run env events) := by
  have hwork : ∀ rest, Preserves (World.OnPort port) (RDMAClient.work env rest) := fun rest =>
    (working_on_cm_event_preserves RDMAClient.on_event_preserves rest).bind fun _ =>
      preserves_of_leaves RDMAClient.close_leaves (by simp)
  intro w h
  apply wp_bind_of (RDMAClient.create_onPort h) _ (fun _ _ h => h)
  rintro found w₁ ⟨h₁, hfound⟩
  cases found with
  | none => exact h₁
  | some sin_port =>
    obtain rfl : sin_port = UInt16.ofInt port := hfound sin_port rfl
    apply wp_bind_of (RDMAClient.resolve_addr_preserves NUM_OF_RETRIES events w₁ h₁) _ (fun _ _ h => h)
    intro left w₂ h₂
    cases left with
    | none => exact h₂
    | some left =>
      apply wp_bind_of (RDMAClient.resolve_route_preserves left.1 left.2 w₂ h₂) _ (fun _ _ h => h)
      intro left w₃ h₃
      cases left with
      | none => exact h₃
      | some rest => exact hwork rest w₃ h₃

theorem World.onPort_start {conn : ConnectionProc} (hport : conn.conn_params.env.server_port = port) :
    (World.start conn).OnPort port := ⟨hport, by simp [World.start, rdma_com.sin_ports, picked]⟩

/-- As documented for `getaddrinfo`, the number of a service has no sign. -/
def Env.RefusesSign (env : Env) (port : Int) : Prop :=
  port < 0 → ∀ log servername, env.succeeds log (.getaddrinfo servername (toString port)) = false

/-- Nothing has been bound or resolved. -/
structure World.Unbound (port : Int) (w : World) : Prop where
  server_port : w.conn.conn_params.env.server_port = port
  sin_ports : sin_ports w.log = []

theorem World.Unbound.record (h : w.Unbound port) {op : Op} (hop : op.sin_port = none) :
    (w.record op).Unbound port where
  server_port := h.server_port
  sin_ports := by
    rw [rdma_com.sin_ports, picked_record, hop, Option.toList_none, List.append_nil]
    exact h.sin_ports

theorem World.Unbound.modify_ctx (h : w.Unbound port) (f : ConnContext → ConnContext) :
    (w.modify_ctx f).Unbound port := ⟨h.server_port, h.sin_ports⟩

theorem World.unbound_start {conn : ConnectionProc} (hport : conn.conn_params.env.server_port = port) :
    (World.start conn).Unbound port := ⟨hport, rfl⟩

/-- There is no service for a negative port. -/
theorem wp_resolve_port_refused (hrefuses : env.RefusesSign port) (hnegative : port < 0) (h : w.Unbound port)
    (servername : Option String) :
    wp (resolve_port env servername) (fun found w' => found = none ∧ w'.Unbound port) (fun _ _ => False) w := by
  have hfound : wp (check_add_port env port servername) (fun ret w' => ret = .FAILURE ∧ w'.Unbound port)
      (fun _ _ => False) w := by
    unfold check_add_port
    refine wp_invoke_isNone ⟨rfl, h.record rfl⟩ ?_
    rw [wp_bind, wp_invoke, hrefuses hnegative]
    exact ⟨rfl, ((h.record rfl).record rfl).record rfl⟩
  unfold resolve_port
  rw [wp_bind, wp_get, h.server_port]
  apply wp_bind_of hfound _ (fun _ _ h => h)
  rintro _ w₁ ⟨rfl, h₁⟩
  exact ⟨rfl, h₁.record rfl⟩

/-- With a negative port the server returns before it binds. -/
theorem RDMAServer.run_refused (hrefuses : env.RefusesSign port) (hnegative : port < 0) (h : w.Unbound port) :
    wp (RDMAServer.run env events) (fun ret w' => ret = .FAILURE ∧ w'.Unbound port) (fun _ _ => False) w := by
  have hlisten : wp (RDMAServer.listen env) (fun ret w' => ret = .FAILURE ∧ w'.Unbound port) (fun _ _ => False) w := by
    unfold RDMAServer.listen
    rw [wp_bind]
    apply wp_invoke_of
    intro created
    rw [wp_bind, wp_modify_ctx]
    cases created with
    | false => exact ⟨rfl, (h.record rfl).modify_ctx _⟩
    | true =>
      refine wp_invoke_isNone ⟨rfl, ((h.record rfl).modify_ctx _).record rfl⟩ ?_
      rw [wp_bind, wp_modify_ctx]
      apply wp_bind_of (wp_resolve_port_refused hrefuses hnegative
        ((((h.record rfl).modify_ctx _).record rfl).modify_ctx _) none) _ (fun _ _ h => h)
      rintro _ w₁ ⟨rfl, h₁⟩
      exact ⟨rfl, h₁⟩
  unfold RDMAServer.run
  apply wp_bind_of hlisten _ (fun _ _ h => h)
  rintro _ w₁ ⟨rfl, h₁⟩
  exact ⟨rfl, h₁⟩

/-- With a negative port the client returns before it resolves. -/
theorem RDMAClient.run_refused (hrefuses : env.RefusesSign port) (hnegative : port < 0) (h : w.Unbound port) :
    wp (RDMAClient.run env events) (fun ret w' => ret = .FAILURE ∧ w'.Unbound port) (fun _ _ => False) w := by
  have hcreate : wp (RDMAClient.create env) (fun found w' => found = none ∧ w'.Unbound port) (fun _ _ => False) w := by
    unfold RDMAClient.create
    rw [wp_bind]
    apply wp_invoke_of
    intro created
    rw [wp_bind, wp_modify_ctx]
    cases created with
    | false => exact ⟨rfl, (h.record rfl).modify_ctx _⟩
    | true =>
      refine wp_invoke_isNone ⟨rfl, ((h.record rfl).modify_ctx _).record rfl⟩ ?_
      rw [wp_bind, wp_modify_ctx, wp_bind, wp_get]
      exact wp_resolve_port_refused hrefuses hnegative ((((h.record rfl).modify_ctx _).record rfl).modify_ctx _) _
  unfold RDMAClient.run
  apply wp_bind_of hcreate _ (fun _ _ h => h)
  rintro _ w₁ ⟨rfl, h₁⟩
  exact ⟨rfl, h₁⟩

/-- Whatever comes of its calls, a run of the side binds or resolves this port
only, and there are runs in which it does. -/
def KeptBy (new : UInt64 → EnvBasicParam → Option ConnectionProc) (run : Env → Events → Prog Status) (port : Int) :
    Prop :=
  ∀ this params conn, params.server_port = port → new this params = some conn →
    (∀ env events, env.RefusesSign port →
      ∀ sin_port ∈ sin_ports ((run env events).final (.start conn)).log, (sin_port.toNat : Int) = port) ∧
    ∃ env events, env.RefusesSign port ∧ sin_ports ((run env events).final (.start conn)).log ≠ []

/-- The port is the one that the server binds and the client resolves. -/
def PortKept (port : Int) : Prop :=
  KeptBy RDMAServer.new RDMAServer.run port ∧ KeptBy RDMAClient.new RDMAClient.run port

theorem toNat_ofInt (port : Int) : ((UInt16.ofInt port).toNat : Int) = port % 2 ^ 16 := by
  have hlt := Int.emod_lt_of_pos port (show (0 : Int) < 2 ^ 16 by decide)
  have hnonneg := Int.emod_nonneg port (show (2 ^ 16 : Int) ≠ 0 by decide)
  rw [UInt16.ofInt, UInt16.toNat_ofNat']
  omega

theorem Env.refusesSign_of_nonneg (hport : 0 ≤ port) : env.RefusesSign port := fun h => absurd h (by omega)

/-- The server binds the low half of its port when every call succeeds. -/
theorem RDMAServer.sin_ports_working {conn : ConnectionProc} {this : UInt64} {params : EnvBasicParam}
    (hnew : RDMAServer.new this params = some conn) :
    sin_ports ((RDMAServer.run workingEnv []).final (.start conn)).log = [UInt16.ofInt params.server_port] := by
  unfold RDMAServer.new at hnew
  split at hnew
  · cases hnew
    rfl
  · cases hnew

theorem RDMAClient.sin_ports_working {conn : ConnectionProc} {this : UInt64} {params : EnvBasicParam}
    (hnew : RDMAClient.new this params = some conn) :
    sin_ports ((RDMAClient.run workingEnv []).final (.start conn)).log = [UInt16.ofInt params.server_port] := by
  unfold RDMAClient.new at hnew
  split at hnew
  · cases hnew
    rfl
  · cases hnew

/-- A server keeps only ports that fit in 16 bits: it binds no negative port,
and of a greater one the low half. -/
theorem RDMAServer.fits_of_keptBy (h : KeptBy RDMAServer.new RDMAServer.run port) : 0 ≤ port ∧ port < 2 ^ 16 := by
  obtain ⟨conn, hnew⟩ : ∃ conn, RDMAServer.new 0 ⟨none, port, .SERVER⟩ = some conn := ⟨_, rfl⟩
  obtain ⟨hkept, env, events, hrefuses, hbinds⟩ := h 0 ⟨none, port, .SERVER⟩ conn rfl hnew
  have hnonneg : 0 ≤ port := by
    by_contra hnegative
    have hstart : (World.start conn).Unbound port := World.unbound_start (by rw [RDMAServer.new_conn_params hnew])
    have hrun : wp (RDMAServer.run env events) (fun _ => World.Unbound port) (fun _ => World.Unbound port)
        (.start conn) :=
      wp_mono (RDMAServer.run_refused hrefuses (by omega) hstart) (fun _ _ h => h.2) fun _ _ h => h.elim
    exact hbinds (wp_final hrun).sin_ports
  have hsame := hkept workingEnv [] (Env.refusesSign_of_nonneg hnonneg) (UInt16.ofInt port)
    (by rw [RDMAServer.sin_ports_working hnew]; exact List.mem_singleton_self _)
  rw [toNat_ofInt] at hsame
  omega

/-- A side whose runs keep to the low half of its port keeps a port that fits. -/
theorem keptBy_of_fits {new : UInt64 → EnvBasicParam → Option ConnectionProc} {run : Env → Events → Prog Status}
    (hmin : 0 ≤ port) (hmax : port < 2 ^ 16)
    (hpreserves : ∀ env events, Preserves (World.OnPort port) (run env events))
    (hparams : ∀ this params conn, new this params = some conn → conn.conn_params.env = params)
    (hworking : ∀ this params conn, new this params = some conn →
      sin_ports ((run workingEnv []).final (.start conn)).log = [UInt16.ofInt params.server_port]) :
    KeptBy new run port := by
  rintro this params conn rfl hnew
  have hport : conn.conn_params.env.server_port = params.server_port := by
    rw [hparams this params conn hnew]
  refine ⟨?_, workingEnv, [], Env.refusesSign_of_nonneg hmin, ?_⟩
  · intro env events _ sin_port hmem
    have hfinal := wp_final (hpreserves env events _ (World.onPort_start hport))
    rw [hfinal.sin_ports sin_port hmem, toNat_ofInt]
    exact Int.emod_eq_of_lt hmin hmax
  · rw [hworking this params conn hnew]
    exact List.cons_ne_nil _ _

/-- A run keeps the ports that fit in 16 bits, and no others. -/
theorem portKept_iff : PortKept port ↔ 0 ≤ port ∧ port < 2 ^ 16 := by
  constructor
  · exact fun h => RDMAServer.fits_of_keptBy h.1
  · rintro ⟨hmin, hmax⟩
    constructor
    · apply keptBy_of_fits hmin hmax RDMAServer.run_preserves
      · exact fun _ _ _ hnew => by rw [RDMAServer.new_conn_params hnew]
      · exact fun _ _ _ hnew => RDMAServer.sin_ports_working hnew
    · apply keptBy_of_fits hmin hmax RDMAClient.run_preserves
      · exact fun _ _ _ hnew => by rw [RDMAClient.new_conn_params hnew]
      · exact fun _ _ _ hnew => RDMAClient.sin_ports_working hnew

end tc_rdma.rdma_com
