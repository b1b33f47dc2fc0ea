import TcRdma.Machine.Online
import TcRdma.RdmaCom.InterruptedServer

open tc_rdma.machine

namespace tc_rdma.rdma_com

variable {α β : Type} {env : Env} {events : Events} {C : List Concern}

/-- More has been recorded. -/
def World.Precedes (w w' : World) : Prop := w.log <+: w'.log

theorem World.Precedes.refl (w : World) : w.Precedes w := List.prefix_rfl

theorem World.Precedes.trans {w₁ w₂ w₃ : World} (h : w₁.Precedes w₂) (h' : w₂.Precedes w₃) : w₁.Precedes w₃ :=
  List.IsPrefix.trans h h'

/-- The program only adds to the log. -/
abbrev Logs (x : Prog α) : Prop := Grows World.Precedes x

/-- The second program does what the first one does, and goes on from where
that one waits for an event. -/
abbrev GoesOn (A : α → β → Prop) (x : Prog α) (y : Prog β) : Prop := Prolongs Halt.Waits World.Precedes A x y

theorem GoesOn.bind {γ δ : Type} {A : α → β → Prop} {B : γ → δ → Prop} {x : Prog α} {y : Prog β} {f : α → Prog γ}
    {g : β → Prog δ} (hxy : GoesOn A x y) (hfg : ∀ a b, A a b → GoesOn B (f a) (g b)) (hg : ∀ b, Logs (g b)) :
    GoesOn B (x >>= f) (y >>= g) :=
  Prolongs.bind World.Precedes.refl (fun hab hbc => hab.trans hbc) hxy hfg hg

theorem GoesOn.logs {A : α → β → Prop} {x : Prog α} {y : Prog β} (hxy : GoesOn A x y) (hx : Logs x) : Logs y :=
  hxy.grows World.Precedes.refl (fun hab hbc => hab.trans hbc) hx

theorem Logs.bind {x : Prog α} {f : α → Prog β} (hx : Logs x) (hf : ∀ a, Logs (f a)) : Logs (x >>= f) :=
  Guarantees.bind (R := World.Precedes) (fun hab hbc => hab.trans hbc) hx hf

theorem Leaves.logs {x : Prog α} (hx : Leaves C x) : Logs x :=
  fun w => wp_mono (hx w) (fun _ _ h => h.log.isPrefix) fun _ _ h => ⟨trivial, h.2.log.isPrefix⟩

theorem logs_pure (a : α) : Logs (pure a : Prog α) := fun w => .refl w

theorem logs_throw (halt : Halt) : Logs (throw halt : Prog α) := fun w => ⟨trivial, .refl w⟩

theorem logs_record (op : Op) : Logs (record op) := fun _ => List.prefix_append _ _

theorem logs_invoke (c : Call) : Logs (invoke env c) :=
  (leaves_invoke (List.mem_singleton_self _)).logs

theorem logs_load {member : Member} {cell : ConnContext → Cell α} : Logs (load member cell) :=
  (leaves_load (C := [])).logs

theorem logs_modify_ctx (f : ConnContext → ConnContext) : Logs (modify_ctx f) := fun w => .refl w

theorem logs_ack (n : Handle) : Logs (rdma_ack_cm_event env n) := (rdma_ack_cm_event_leaves n).logs

theorem logs_obtain (event : RdmaCmEvent) : Logs (obtain_event event) := (obtain_event_leaves event).logs

section Loop

variable {site : Site} {on_event : RdmaCmEvent → Prog Status}

theorem working_on_cm_event_logs (hhandler : ∀ event, Leaves C (on_event event)) (events : Events) :
    Logs (working_on_cm_event env site on_event events) := by
  induction events with
  | nil => exact logs_throw _
  | cons head rest ih =>
    cases head with
    | none => exact logs_record _
    | some event =>
      apply (handle_cm_event_leaves hhandler event).logs.bind
      exact fun _ => Grows.ite (logs_pure _) ih

theorem working_on_cm_event_goes_on (hhandler : ∀ event, Leaves C (on_event event)) (events more : Events) :
    GoesOn Eq (working_on_cm_event env site on_event events)
      (working_on_cm_event env site on_event (events ++ more)) := by
  induction events with
  | nil => exact prolongs_throw ⟨site, rfl⟩ (working_on_cm_event_logs hhandler more)
  | cons head rest ih =>
    cases head with
    | none => exact prolongs_refl (fun _ => rfl) _
    | some event =>
      apply Prolongs.after
      intro ret
      cases ret with
      | FAILURE => exact prolongs_pure rfl
      | SUCCESS => exact ih

end Loop

theorem RDMAServer.serve_logs (events : Events) : Logs (RDMAServer.serve env events) :=
  (working_on_cm_event_logs RDMAServer.on_event_leaves events).bind fun _ => RDMAServer.close_leaves.logs

theorem RDMAServer.serve_goes_on (events more : Events) :
    GoesOn Eq (RDMAServer.serve env events) (RDMAServer.serve env (events ++ more)) :=
  (working_on_cm_event_goes_on RDMAServer.on_event_leaves events more).bind
    (fun _ _ _ => prolongs_refl (fun _ => rfl) _) fun _ => RDMAServer.close_leaves.logs

theorem RDMAServer.first_event_logs (event : RdmaCmEvent) : Logs (RDMAServer.first_event env event) := by
  apply (logs_obtain event).bind
  intro n
  apply Grows.ite
  · exact (logs_record _).bind fun _ => logs_pure _
  · apply (logs_modify_ctx _).bind
    intro _
    apply (RDMAServer.on_connect_request_leaves event.id).logs.bind
    exact fun _ => Grows.ite (logs_pure _) ((logs_ack n).bind fun _ => logs_pure _)

theorem RDMAServer.run_goes_on (events more : Events) :
    GoesOn Eq (RDMAServer.run env events) (RDMAServer.run env (events ++ more)) := by
  apply Prolongs.after
  intro ret
  cases ret with
  | FAILURE => exact prolongs_pure rfl
  | SUCCESS =>
    cases events with
    | nil =>
      apply prolongs_throw ⟨_, rfl⟩
      cases more with
      | nil => exact logs_throw _
      | cons head rest =>
        cases head with
        | none => exact (logs_record _).bind fun _ => (logs_record _).bind fun _ => logs_pure _
        | some event =>
          apply (RDMAServer.first_event_logs event).bind
          exact fun _ => Grows.ite (logs_pure _) (RDMAServer.serve_logs rest)
    | cons head rest =>
      cases head with
      | none => exact prolongs_refl (fun _ => rfl) _
      | some event =>
        apply Prolongs.after
        intro ret
        cases ret with
        | FAILURE => exact prolongs_pure rfl
        | SUCCESS => exact RDMAServer.serve_goes_on rest more

section Client

variable {more : Events}

/-- A loop leaves the events that it has not taken, and those that come later. -/
abbrev LeftWith (more : Events) (left left' : Option Events) : Prop := left' = left.map (· ++ more)

theorem RDMAClient.resolve_route_waits (retries : Nat) : Logs (RDMAClient.resolve_route env retries []) := by
  cases retries with
  | zero => exact (logs_record _).bind fun _ => logs_pure _
  | succ retries => exact logs_throw _

theorem RDMAClient.resolve_route_goes_on (retries : Nat) (events more : Events) :
    GoesOn (LeftWith more) (RDMAClient.resolve_route env retries events)
      (RDMAClient.resolve_route env retries (events ++ more)) := by
  induction retries generalizing events more with
  | zero =>
    apply Prolongs.after
    intro _
    exact prolongs_pure rfl
  | succ retries ih =>
    unfold RDMAClient.resolve_route
    cases events with
    | nil =>
      apply prolongs_throw ⟨_, rfl⟩
      cases more with
      | nil => exact logs_throw _
      | cons head rest =>
        cases head with
        | none => exact (logs_record _).bind fun _ => (logs_record _).bind fun _ => logs_pure _
        | some event =>
          have hrest : Logs (RDMAClient.resolve_route env retries rest) :=
            (ih [] rest).logs (RDMAClient.resolve_route_waits retries)
          apply (logs_obtain event).bind
          intro n
          apply Grows.ite ((logs_ack n).bind fun _ => hrest)
          apply Grows.ite ((logs_record _).bind fun _ => (logs_ack n).bind fun _ => logs_pure _)
          apply (logs_ack n).bind
          intro _
          apply (RDMAClient.on_route_resolved_leaves event.id).logs.bind
          exact fun _ => Grows.ite (logs_pure _) (logs_pure _)
    | cons head rest =>
      cases head with
      | none =>
        apply Prolongs.after
        intro _
        apply Prolongs.after
        intro _
        exact prolongs_pure rfl
      | some event =>
        apply Prolongs.after
        intro n
        apply Prolongs.ite
        · apply Prolongs.after
          exact fun _ => ih rest more
        apply Prolongs.ite
        · apply Prolongs.after
          intro _
          apply Prolongs.after
          intro _
          exact prolongs_pure rfl
        · apply Prolongs.after
          intro _
          apply Prolongs.after
          exact fun _ => Prolongs.ite (prolongs_pure rfl) (prolongs_pure rfl)

theorem RDMAClient.resolve_addr_waits (sin_port : UInt16) (retries : Nat) :
    Logs (RDMAClient.resolve_addr env sin_port retries []) := by
  cases retries with
  | zero => exact (logs_record _).bind fun _ => logs_pure _
  | succ retries =>
    refine logs_load.bind fun _ => (logs_invoke _).bind fun _ => Grows.ite ?_ (logs_throw _)
    exact (logs_record _).bind fun _ => logs_pure _

theorem RDMAClient.resolve_addr_goes_on (sin_port : UInt16) (retries : Nat) (events more : Events) :
    GoesOn (fun left left' => left' = left.map fun next => (next.1, next.2 ++ more))
      (RDMAClient.resolve_addr env sin_port retries events)
      (RDMAClient.resolve_addr env sin_port retries (events ++ more)) := by
  induction retries generalizing events more with
  | zero =>
    apply Prolongs.after
    intro _
    exact prolongs_pure rfl
  | succ retries ih =>
    unfold RDMAClient.resolve_addr
    apply Prolongs.after
    intro cm_id
    apply Prolongs.after
    intro asked
    apply Prolongs.ite
    · apply Prolongs.after
      intro _
      exact prolongs_pure rfl
    cases events with
    | nil =>
      apply prolongs_throw ⟨_, rfl⟩
      cases more with
      | nil => exact logs_throw _
      | cons head rest =>
        cases head with
        | none => exact (logs_record _).bind fun _ => (logs_record _).bind fun _ => logs_pure _
        | some event =>
          have hrest : Logs (RDMAClient.resolve_addr env sin_port retries rest) :=
            (ih [] rest).logs (RDMAClient.resolve_addr_waits sin_port retries)
          apply (logs_obtain event).bind
          intro n
          apply Grows.ite ((logs_ack n).bind fun _ => hrest)
          apply Grows.ite ((logs_ack n).bind fun _ => logs_pure _)
          refine logs_load.bind fun _ => (logs_modify_ctx _).bind fun _ => (logs_ack n).bind fun _ => ?_
          apply (RDMAClient.on_addr_resolved_leaves event.id).logs.bind
          exact fun _ => Grows.ite (logs_pure _) (logs_pure _)
    | cons head rest =>
      cases head with
      | none =>
        apply Prolongs.after
        intro _
        apply Prolongs.after
        intro _
        exact prolongs_pure rfl
      | some event =>
        apply Prolongs.after
        intro n
        apply Prolongs.ite
        · apply Prolongs.after
          exact fun _ => ih rest more
        apply Prolongs.ite
        · apply Prolongs.after
          intro _
          exact prolongs_pure rfl
        · apply Prolongs.after
          intro _
          apply Prolongs.after
          intro _
          apply Prolongs.after
          intro _
          apply Prolongs.after
          exact fun _ => Prolongs.ite (prolongs_pure rfl) (prolongs_pure rfl)

theorem RDMAClient.resolve_route_logs (retries : Nat) (events : Events) :
    Logs (RDMAClient.resolve_route env retries events) :=
  (RDMAClient.resolve_route_goes_on retries [] events).logs (RDMAClient.resolve_route_waits retries)

theorem RDMAClient.work_logs (events : Events) : Logs (RDMAClient.work env events) :=
  (working_on_cm_event_logs RDMAClient.on_event_leaves events).bind fun _ => RDMAClient.close_leaves.logs

theorem RDMAClient.work_goes_on (events more : Events) :
    GoesOn Eq (RDMAClient.work env events) (RDMAClient.work env (events ++ more)) :=
  (working_on_cm_event_goes_on RDMAClient.on_event_leaves events more).bind
    (fun _ _ _ => prolongs_refl (fun _ => rfl) _) fun _ => RDMAClient.close_leaves.logs

theorem RDMAClient.run_goes_on (events more : Events) :
    GoesOn Eq (RDMAClient.run env events) (RDMAClient.run env (events ++ more)) := by
  apply Prolongs.after
  intro port
  cases port with
  | none => exact prolongs_pure rfl
  | some sin_port =>
    apply GoesOn.bind (RDMAClient.resolve_addr_goes_on sin_port NUM_OF_RETRIES events more)
    · rintro left _ rfl
      cases left with
      | none => exact prolongs_pure rfl
      | some next =>
        apply GoesOn.bind (RDMAClient.resolve_route_goes_on next.1 next.2 more)
        · rintro left _ rfl
          cases left with
          | none => exact prolongs_pure rfl
          | some rest => exact RDMAClient.work_goes_on rest more
        · intro left
          cases left with
          | none => exact logs_pure _
          | some rest => exact RDMAClient.work_logs rest
    · intro left
      cases left with
      | none => exact logs_pure _
      | some next =>
        apply (RDMAClient.resolve_route_logs next.1 next.2).bind
        intro left
        cases left with
        | none => exact logs_pure _
        | some rest => exact RDMAClient.work_logs rest

end Client

theorem Side.run_goes_on (side : Side) (events more : Events) :
    GoesOn Eq (side.run env events) (side.run env (events ++ more)) := by
  cases side with
  | client => exact RDMAClient.run_goes_on events more
  | server => exact RDMAServer.run_goes_on events more

/-- What a side records while it gets some events is what it records first
when it gets more of them. -/
theorem conn_run_goes_on (env : Env) (events more : Events) (conn : ConnectionProc) :
    (conn_run env events conn).1 <+: (conn_run env (events ++ more) conn).1 := by
  have hlog : ∀ events, (conn_run env events conn).1 = ((conn.side.run env events).final (.start conn)).log := by
    intro events
    rw [conn_run_eq]
    cases hends : conn.side.run env events (.start conn) with
    | ok ret w => rw [Program.final_of_ok hends]
    | error halt w => rw [Program.final_of_error hends]
  rw [hlog, hlog]
  exact (conn.side.run_goes_on events more).final World.Precedes.refl (.start conn)

end tc_rdma.rdma_com
