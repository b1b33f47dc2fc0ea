import TcRdma.RdmaCom.BuildConnection

open tc_rdma.machine

namespace tc_rdma.rdma_com

inductive ObjectKind where
  | pd
  | comp_channel
  | cq
  | thread
  | qp
  | memory
  | mr
  deriving DecidableEq, Repr

/-- What a successful call creates. -/
def Call.acquires : Call → Option ObjectKind
  | .ibv_alloc_pd _ => some .pd
  | .ibv_create_comp_channel _ => some .comp_channel
  | .ibv_create_cq _ _ _ => some .cq
  | .pthread_create => some .thread
  | .rdma_create_qp _ _ _ => some .qp
  | .malloc _ => some .memory
  | .ibv_reg_mr _ _ _ _ => some .mr
  | _ => none

/-- What a call gives back. The program makes no call that would give back a
protection domain, a completion channel, a completion queue or a thread. -/
def Call.releases : Call → Option (ObjectKind × Handle)
  | .rdma_destroy_qp _ qp => some (.qp, qp)
  | .ibv_dereg_mr mr => some (.mr, mr)
  | .free (some memory) => some (.memory, memory)
  | _ => none

def Op.acquires : Op → Option (ObjectKind × Handle)
  | .call n c true => c.acquires.map fun kind => (kind, n)
  | _ => none

def Op.releases : Op → Option (ObjectKind × Handle)
  | .call _ c _ => c.releases
  | _ => none

def acquired (log : List Entry) : List (ObjectKind × Handle) := picked Op.acquires log

def released (log : List Entry) : List (ObjectKind × Handle) := picked Op.releases log

/-- What has been recorded since. -/
def World.since (w' w : World) : List Entry := w'.log.drop w.log.length

/-- The objects that a call of `build_connection` has acquired are given back
exactly once: by the call itself when it fails, else by `destroy_connection`. -/
def Balanced (env : Env) (w : World) (ret : Status) (w' : World) : Prop :=
  match ret with
  | .FAILURE => ∀ object ∈ acquired (w'.since w), (released (w'.since w)).count object = 1
  | .SUCCESS =>
    ∀ object ∈ acquired (w'.since w), (released (((destroy_connection env).final w').since w')).count object = 1

theorem Op.releases_kind {op : Op} {object : ObjectKind × Handle} (h : op.releases = some object) :
    object.1 = .qp ∨ object.1 = .mr ∨ object.1 = .memory := by
  unfold Op.releases at h
  split at h
  · unfold Call.releases at h
    split at h
    · cases h
      exact .inl rfl
    · cases h
      exact .inr (.inl rfl)
    · cases h
      exact .inr (.inr rfl)
    · cases h
  · cases h

theorem cq_not_released (log : List Entry) (n : Handle) : (released log).count (.cq, n) = 0 := by
  rw [List.count_eq_zero]
  intro hmem
  obtain ⟨entry, _, hentry⟩ := mem_picked.mp hmem
  have hkind := Op.releases_kind hentry
  simp at hkind

theorem CqCreated.mem_acquired {w w' : World} (h : CqCreated w w') : ∃ n, (.cq, n) ∈ acquired (w'.since w) := by
  obtain ⟨added, hadded, entry, hentry, n, context, cqe, comp_channel, hop⟩ := h
  refine ⟨n, mem_picked.mpr ⟨entry, ?_, by rw [hop]; rfl⟩⟩
  rw [World.since, hadded, List.drop_left]
  exact hentry

theorem CqCreated.not_balanced {env : Env} {w w' : World} (h : CqCreated w w') (ret : Status) :
    ¬ Balanced env w ret w' := by
  obtain ⟨n, hn⟩ := h.mem_acquired
  intro hbalanced
  cases ret with
  | SUCCESS =>
    have hone := hbalanced _ hn
    rw [cq_not_released] at hone
    cases hone
  | FAILURE =>
    have hone := hbalanced _ hn
    rw [cq_not_released] at hone
    cases hone

/-- A call of `build_connection` that returns is balanced only when it refused
the device before it acquired anything. Otherwise the completion queue it has
created stays, whatever the outcomes of the later calls were. -/
theorem build_connection_balanced_iff {env : Env} {id : CmId} {w w' : World} {ret : Status}
    (hbuild : build_connection env id w = .ok ret w') : Balanced env w ret w' ↔ Refused env id w := by
  obtain ⟨last, hreturns, -, rfl⟩ := wp_ok (wp_build_connection env id w) hbuild
  have hgrows : last.log <+: (last.record (.build_connection_returned id ret)).log := List.prefix_append _ _
  cases hreturns with
  | refused hrefused =>
    refine ⟨fun _ => hrefused, fun _ => ?_⟩
    intro object hobject
    simp [acquired, picked, World.since, Op.acquires] at hobject
  | no_queue_pair _ hrefused hcq _ =>
    exact ⟨fun h => absurd h ((hcq.extend hgrows).not_balanced _), fun h => absurd h hrefused⟩
  | built _ hrefused hcq =>
    exact ⟨fun h => absurd h ((hcq.extend hgrows).not_balanced _), fun h => absurd h hrefused⟩

/-- A server that has just stored the id of its first connect request. -/
def requestedWorld : World :=
  World.start
    { this := 64
      conn_params :=
        { env := { server_ip := none, server_port := 18515, machine := .SERVER }
          connected := false
          num_of_qps := 1
          wr_cq_number := 128 }
      conn_ctx := { ConnContext.uninitialized with cm_id := .set 2, context := .set (some 0) } }

theorem build_connection_balanced_iff_no_queue_pair :
    ∃ w', build_connection noQueuePairEnv 2 requestedWorld = .ok .FAILURE w' ∧
      (Balanced noQueuePairEnv requestedWorld .FAILURE w' ↔ Refused noQueuePairEnv 2 requestedWorld) :=
  ⟨_, rfl, build_connection_balanced_iff rfl⟩

/-- The protection domain, the completion channel, the completion queue and
the thread outlive the call that failed. -/
theorem build_connection_unbalanced :
    ∃ w', build_connection noQueuePairEnv 2 requestedWorld = .ok .FAILURE w' ∧
      acquired (w'.since requestedWorld) = [(.pd, 0), (.comp_channel, 1), (.cq, 2), (.thread, 4)] ∧
      released (w'.since requestedWorld) = [] ∧ ¬ Balanced noQueuePairEnv requestedWorld .FAILURE w' := by
  refine ⟨_, rfl, by decide +kernel, by decide +kernel, ?_⟩
  intro hbalanced
  have hone := hbalanced (.pd, 0) (by decide +kernel)
  revert hone
  decide +kernel

end tc_rdma.rdma_com
