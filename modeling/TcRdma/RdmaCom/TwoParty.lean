import TcRdma.Machine.Interleave
import TcRdma.RdmaCom.MetaRuns

open tc_rdma.machine

namespace tc_rdma.rdma_com

inductive Side where
  | client
  | server
  deriving DecidableEq, Repr

def Side.peer : Side → Side
  | .client => .server
  | .server => .client

/-- The id for which a side opens or accepts a connection. -/
def Side.joins : Side → Op → Option CmId
  | .client, .call _ (.rdma_connect id _) true => some id
  | .server, .call _ (.rdma_accept id _) true => some id
  | _, _ => none

/-- One client and one server, as their constructors leave them. Their calls
succeed, and the events of the client are for its one id. -/
structure Session where
  env : Side → Env
  conn : Side → ConnectionProc
  events : Side → Events
  reliable : ∀ side, (env side).Reliable
  client_new : ∃ this params, RDMAClient.new this params = some (conn .client)
  server_new : ∃ this params, RDMAServer.new this params = some (conn .server)
  own : RDMAClient.Own (env .client) (events .client)

/-- All that a side records when it runs on its own events. -/
def Session.log (s : Session) : Side → List Entry
  | .client => ((RDMAClient.run (s.env .client) (s.events .client)).final (.start (s.conn .client))).log
  | .server => ((RDMAServer.run (s.env .server) (s.events .server)).final (.start (s.conn .server))).log

/-- The connection manager between the two. A connect request reaches the
server only after the client has opened the connection, and a side is told at
most once that the connection is established, after the server has accepted it. -/
structure Delivered (log : List (Side × Entry)) : Prop where
  request_opened : Always (fun front entry =>
    entry.1 = .server → entry.2.op.delivers .RDMA_CM_EVENT_CONNECT_REQUEST = true →
      ∃ earlier ∈ part .client front, (Side.client.joins earlier.op).isSome) log
  established_accepted : Always (fun front entry =>
    entry.2.op.delivers .RDMA_CM_EVENT_ESTABLISHED = true →
      ∃ earlier ∈ part .server front, (Side.server.joins earlier.op).isSome) log
  established_once : ∀ side, established (part side log) ≤ 1

/-- When the side opens or accepts a connection, it has posted `N` receives on
the queue pair of the connection's id. -/
def Posted (side : Side) (N : Nat) (before : List Entry) (join : Entry) : Prop :=
  ∀ id, side.joins join.op = some id →
    ∃ qp, join.conn.conn_ctx.qp = .set (some qp) ∧ QpOf id qp before ∧ N ≤ tally (Op.receives_on qp) before

variable {s : Session} {side : Side} {log front back : List (Side × Entry)} {entry : Entry} {N : Nat}

theorem Session.permitted (s : Session) (side : Side) :
    Always (Permitted (s.conn side).conn_params.wr_cq_number) (s.log side) := by
  cases side with
  | client => exact RDMAClient.run_permitted (s.reliable .client) (s.conn .client) s.own
  | server => exact RDMAServer.run_permitted (s.reliable .server) (s.conn .server)

theorem Session.permitted_part (s : Session) (hinterleaved : Interleaves s.log log) (side : Side) :
    Always (Permitted (s.conn side).conn_params.wr_cq_number) (part side log) := by
  obtain ⟨added, hadded⟩ := hinterleaved side
  have halways := s.permitted side
  rw [← hadded] at halways
  exact halways.of_append

theorem Session.wr_cq_number (s : Session) (side : Side) : (s.conn side).conn_params.wr_cq_number = 128 := by
  cases side with
  | client =>
    obtain ⟨this, params, hnew⟩ := s.client_new
    rw [RDMAClient.new_conn_params hnew]
  | server =>
    obtain ⟨this, params, hnew⟩ := s.server_new
    rw [RDMAServer.new_conn_params hnew]

/-- A connection is opened or accepted by a side that is equipped for it. -/
theorem equipped_of_joins {id : CmId} {before : List Entry} (h : Permitted N before entry)
    (hjoins : side.joins entry.op = some id) : Equipped id N entry.conn.conn_ctx before := by
  unfold Side.joins at hjoins
  split at hjoins
  · rename_i hop
    cases hjoins
    rw [Permitted, hop] at h
    exact h
  · rename_i hop
    cases hjoins
    rw [Permitted, hop] at h
    exact h.1
  · cases hjoins

theorem requested_of_accepts {before : List Entry} (h : Permitted N before entry)
    (hjoins : (Side.server.joins entry.op).isSome) : 0 < requested before := by
  unfold Side.joins at hjoins
  split at hjoins
  · contradiction
  · rename_i hop
    rw [Permitted, hop] at h
    exact h.2
  · cases hjoins

theorem Permitted.posted {before : List Entry} (h : Permitted N before entry) : Posted side N before entry :=
  fun _ hjoins => (equipped_of_joins h hjoins).qp

theorem exists_of_tally_pos {p : Op → Bool} {log : List Entry} (h : 0 < tally p log) :
    ∃ entry ∈ log, p entry.op = true := List.countP_pos_iff.mp h

/-- Whoever is told that the connection is established, the server has
accepted it before, and the client had opened it before that. -/
theorem Session.peer_joined (s : Session) (hinterleaved : Interleaves s.log front) (hdelivered : Delivered front)
    (htold : 0 < established (part side front)) :
    ∃ join ∈ part side.peer front, (side.peer.joins join.op).isSome := by
  obtain ⟨told, hmem, hdelivers⟩ := exists_of_tally_pos htold
  obtain ⟨before, after, rfl⟩ := exists_split_of_mem_part hmem
  obtain ⟨accept, haccept, hjoins⟩ := hdelivered.established_accepted before (side, told) after rfl hdelivers
  rw [part_append]
  cases side with
  | client => exact ⟨accept, List.mem_append_left _ haccept, hjoins⟩
  | server =>
    obtain ⟨sooner, later, rfl⟩ := exists_split_of_mem_part haccept
    have hrequested := requested_of_accepts (hinterleaved.of_append.always_at (s.permitted .server)) hjoins
    obtain ⟨request, hrequest, hdelivers⟩ := exists_of_tally_pos hrequested
    obtain ⟨first, rest, rfl⟩ := exists_split_of_mem_part hrequest
    have hopened := hdelivered.request_opened first (.server, request)
      (rest ++ (.server, accept) :: (later ++ (.server, told) :: after)) (by simp) rfl hdelivers
    obtain ⟨connect, hconnect, hjoins⟩ := hopened
    refine ⟨connect, List.mem_append_left _ ?_, hjoins⟩
    rw [part_append, part_append]
    exact List.mem_append_left _ (List.mem_append_left _ hconnect)

/-- A side that is told once sends at most once. -/
theorem sends_le_established {log : List Entry} (h : Always (Permitted N) log) : sends log ≤ established log := by
  induction log using List.reverseRec with
  | nil => exact Nat.le_refl _
  | append_singleton log entry ih =>
    obtain ⟨hlog, hpermitted⟩ := always_concat.mp h
    have hle := ih hlog
    have hmore : established log ≤ established (log ++ [entry]) := tally_le_of_isPrefix (List.prefix_append _ _)
    cases hsend : entry.op.is_send with
    | false =>
      have hsame : sends (log ++ [entry]) = sends log := by
        rw [sends, tally_append]
        simp [tally, hsend]
      omega
    | true =>
      have hone : sends (log ++ [entry]) = sends log + 1 := by
        rw [sends, tally_append]
        simp [tally, hsend]
      have howed : sends log < established log := by
        unfold Op.is_send at hsend
        split at hsend
        · rename_i hop
          rw [Permitted, hop] at hpermitted
          exact hpermitted.owed
        · cases hsend
      omega

/-- What holds where a side posts its meta message on a queue pair: the queue
pair and the region of the message are there, the peer has joined, it has
posted all its receives for what it joined, and not all of them are used up. -/
structure Session.SafeSend (s : Session) (side : Side) (front : List (Side × Entry)) (entry : Entry) (qp : Handle) :
    Prop where
  ready : SendReady (s.conn side).conn_params.wr_cq_number (part side front) entry.conn qp
  joined : ∃ join ∈ part side.peer front, (side.peer.joins join.op).isSome
  posted : Always (Posted side.peer (s.conn side.peer).conn_params.wr_cq_number) (part side.peer front)
  unused : sends (part side front) < (s.conn side.peer).conn_params.wr_cq_number

theorem Delivered.of_append (h : Delivered (front ++ back)) : Delivered front where
  request_opened := h.request_opened.of_append
  established_accepted := h.established_accepted.of_append
  established_once := by
    intro side
    have honce := h.established_once side
    rw [part_append, established, tally_append] at honce
    exact Nat.le_trans (Nat.le_add_right _ _) honce

/-- However the two runs and the deliveries between them are interleaved, each
side sends its meta message at most once, and only when its own connection is
complete and the peer has posted all its receives. -/
theorem Session.meta_exchange_safe (s : Session) (hinterleaved : Interleaves s.log log) (hdelivered : Delivered log) :
    (∀ side front entry back n qp wr ok, log = front ++ (side, entry) :: back →
      entry.op = .call n (.ibv_post_send qp wr) ok → s.SafeSend side front entry qp) ∧
    ∀ side, sends (part side log) ≤ 1 := by
  constructor
  · rintro side front entry back n qp wr ok rfl hop
    have hpermitted := hinterleaved.always_at (s.permitted side)
    rw [Permitted, hop] at hpermitted
    have hfront : Delivered front := hdelivered.of_append
    have htold : 0 < established (part side front) := Nat.lt_of_le_of_lt (Nat.zero_le _) hpermitted.owed
    refine ⟨hpermitted, s.peer_joined hinterleaved.of_append hfront htold, ?_, ?_⟩
    · exact (s.permitted_part hinterleaved.of_append side.peer).mono fun _ _ h => h.posted
    · have hnone : sends (part side front) < 1 := Nat.lt_of_lt_of_le hpermitted.owed (hfront.established_once side)
      rw [s.wr_cq_number]
      omega
  · intro side
    exact Nat.le_trans (sends_le_established (s.permitted_part hinterleaved side)) (hdelivered.established_once side)

section InOrder

variable {opening accepting telling serving : List Entry}

/-- The client runs until it has opened the connection, the server until it
has accepted it, and then each of them goes on. -/
def inOrder (opening accepting telling serving : List Entry) : List (Side × Entry) :=
  tag .client opening ++ tag .server accepting ++ (tag .client telling ++ tag .server serving)

theorem part_client_inOrder : part .client (inOrder opening accepting telling serving) = opening ++ telling := by
  simp [inOrder, part_append, part_tag_self, part_tag_of_ne]

theorem part_server_inOrder : part .server (inOrder opening accepting telling serving) = accepting ++ serving := by
  simp [inOrder, part_append, part_tag_self, part_tag_of_ne]

theorem established_append (log log' : List Entry) : established (log ++ log') = established log + established log' :=
  tally_append log log'

theorem not_delivers_of_established {log : List Entry} (h : established log = 0) {entry : Entry} (hmem : entry ∈ log) :
    entry.op.delivers .RDMA_CM_EVENT_ESTABLISHED ≠ true := List.countP_eq_zero.mp h entry hmem

theorem delivered_inOrder (hopened : ∃ entry ∈ opening, (Side.client.joins entry.op).isSome)
    (haccepted : ∃ entry ∈ accepting, (Side.server.joins entry.op).isSome) (hopening : established opening = 0)
    (haccepting : established accepting = 0) (htelling : established telling ≤ 1) (hserving : established serving ≤ 1) :
    Delivered (inOrder opening accepting telling serving) where
  request_opened := by
    have hclient : ∀ entry ∈ tag Side.client opening,
        ¬ (entry.1 = .server ∧ entry.2.op.delivers .RDMA_CM_EVENT_CONNECT_REQUEST = true) := by
      intro entry hentry hserver
      obtain ⟨_, _, rfl⟩ := List.mem_map.mp hentry
      cases hserver.1
    rw [← part_tag_self Side.client opening] at hopened
    have halways := always_after hclient hopened
      (tag .server accepting ++ (tag .client telling ++ tag .server serving))
    rw [← List.append_assoc] at halways
    exact halways.mono fun _ _ h hserver hdelivers => h ⟨hserver, hdelivers⟩
  established_accepted := by
    apply always_after
    · intro entry hentry
      rcases List.mem_append.mp hentry with hclient | hserver
      · obtain ⟨_, hin, rfl⟩ := List.mem_map.mp hclient
        exact not_delivers_of_established hopening hin
      · obtain ⟨_, hin, rfl⟩ := List.mem_map.mp hserver
        exact not_delivers_of_established haccepting hin
    · rw [part_append, part_tag_of_ne (by simp), part_tag_self, List.nil_append]
      exact haccepted
  established_once := by
    intro side
    cases side with
    | client =>
      rw [part_client_inOrder, established_append]
      omega
    | server =>
      rw [part_server_inOrder, established_append]
      omega

/-- The two runs of a session in this order, where the client has opened the
connection after `m` entries and the server has accepted it after `n`. -/
def Session.inOrder (s : Session) (m n : Nat) : List (Side × Entry) :=
  rdma_com.inOrder ((s.log .client).take m) ((s.log .server).take n) ((s.log .client).drop m) ((s.log .server).drop n)

theorem Session.part_inOrder (s : Session) (m n : Nat) (side : Side) : part side (s.inOrder m n) = s.log side := by
  cases side with
  | client => exact part_client_inOrder.trans (List.take_append_drop _ _)
  | server => exact part_server_inOrder.trans (List.take_append_drop _ _)

theorem Session.inOrder_interleaves (s : Session) (m n : Nat) : Interleaves s.log (s.inOrder m n) := by
  intro side
  rewrite [s.part_inOrder]
  exact List.prefix_refl _

end InOrder

/-- The events of a server whose connection is established. -/
def servingEvents : Events :=
  [.RDMA_CM_EVENT_CONNECT_REQUEST, .RDMA_CM_EVENT_ESTABLISHED].map fun event => some ⟨event, 2⟩

def establishingSession : Session where
  env := fun _ => workingEnv
  conn
    | .client => clientConn
    | .server => serverConn
  events
    | .client => establishing
    | .server => servingEvents
  reliable := fun _ _ _ _ => rfl
  client_new := ⟨96, clientConn.conn_params.env, rfl⟩
  server_new := ⟨64, serverConn.conn_params.env, rfl⟩
  own := by simp [RDMAClient.Own, establishing, workingEnv]

/-- Both messages are sent, and both are safe. -/
theorem Session.meta_exchange_safe_establishing :
    (∀ side, sends (part side (establishingSession.inOrder 150 148)) = 1) ∧
      ∀ side front entry back n qp wr ok, establishingSession.inOrder 151 149 = front ++ (side, entry) :: back →
        entry.op = .call n (.ibv_post_send qp wr) ok → establishingSession.SafeSend side front entry qp := by
  have hclient : ((establishingSession.log .client).take 151).any
      (fun entry => (Side.client.joins entry.op).isSome) = true := by decide +kernel
  have hserver : ((establishingSession.log .server).take 149).any
      (fun entry => (Side.server.joins entry.op).isSome) = true := by decide +kernel
  have hdelivered : Delivered (establishingSession.inOrder 151 149) :=
    delivered_inOrder (List.any_eq_true.mp hclient) (List.any_eq_true.mp hserver) (by decide +kernel)
      (by decide +kernel) (by decide +kernel) (by decide +kernel)
  refine ⟨?_, (establishingSession.meta_exchange_safe (establishingSession.inOrder_interleaves 151 149) hdelivered).1⟩
  intro side
  rw [Session.part_inOrder]
  cases side <;> decide +kernel

end tc_rdma.rdma_com
