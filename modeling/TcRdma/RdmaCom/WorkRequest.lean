namespace tc_rdma.rdma_com

/-- `ibv_sge`. -/
structure IbvSge where
  addr : UInt64
  length : UInt32
  lkey : UInt32
  deriving DecidableEq, Repr

/-- `ibv_recv_wr` with one scatter entry and no successor. -/
structure IbvRecvWr where
  wr_id : UInt64
  sge : IbvSge
  deriving DecidableEq, Repr

inductive IbvWrOpcode where
  | IBV_WR_SEND
  | IBV_WR_RDMA_WRITE
  | IBV_WR_RDMA_WRITE_WITH_IMM
  | IBV_WR_RDMA_READ
  deriving DecidableEq, Repr

/-- `wr.rdma` of a work request. -/
structure RdmaTarget where
  remote_addr : UInt64
  rkey : UInt32
  deriving DecidableEq, Repr

/-- `ibv_send_wr` with one gather entry and no successor. A field that the
program does not set is `none`. -/
structure IbvSendWr where
  wr_id : UInt64
  opcode : IbvWrOpcode
  sge : IbvSge
  signaled : Bool
  imm_data : Option UInt32
  rdma : Option RdmaTarget
  deriving DecidableEq, Repr

/-- `sizeof(MetaMessage)`: the tag, padded, and the larger union member, which
is an `ibv_mr`. -/
def sizeof_meta_message : UInt32 := 56

/-- The work request of `post_meta_recv_wr`. -/
def meta_recv_wr (this meta_recv : UInt64) (lkey : UInt32) : IbvRecvWr :=
  { wr_id := this, sge := { addr := meta_recv, length := sizeof_meta_message, lkey := lkey } }

/-- The work request of `post_meta_send_wr`. -/
def meta_send_wr (this meta_send : UInt64) (lkey : UInt32) : IbvSendWr :=
  { wr_id := this
    opcode := .IBV_WR_SEND
    sge := { addr := meta_send, length := sizeof_meta_message, lkey := lkey }
    signaled := true
    imm_data := none
    rdma := none }

inductive DmaType where
  | RDMA_REMOTE_WRITE
  | RDMA_REMOTE_READ
  deriving DecidableEq, Repr

/-- `rdma_mem_info`, with the fields of the memory regions that are read. -/
structure RdmaMemInfo where
  dst_addr : UInt64
  dst_rkey : UInt32
  src_lkey : UInt32
  length : UInt32
  offset : UInt32
  use_imm_data : Bool
  imm_data : UInt32
  local_address : UInt64
  deriving DecidableEq, Repr

/-- The work request of `rdma_op`. -/
def rdma_op_wr (this : UInt64) (dma_type : DmaType) (info : RdmaMemInfo) : IbvSendWr :=
  let send_wr : IbvSendWr := {
    wr_id := this
    opcode := .IBV_WR_RDMA_READ
    sge := { addr := info.local_address, length := info.length, lkey := info.src_lkey }
    signaled := true
    imm_data := none
    rdma := some { remote_addr := info.dst_addr + info.offset.toUInt64, rkey := info.dst_rkey } }
  match dma_type with
  | .RDMA_REMOTE_WRITE =>
    if info.use_imm_data then
      { send_wr with opcode := .IBV_WR_RDMA_WRITE_WITH_IMM, imm_data := some info.imm_data }
    else { send_wr with opcode := .IBV_WR_RDMA_WRITE }
  | .RDMA_REMOTE_READ => { send_wr with opcode := .IBV_WR_RDMA_READ }

/-- What a `ConnectionProc` posts: through `post_meta_recv_wr`,
`post_meta_send_wr`, or `rdma_write` and `rdma_read`. -/
inductive Posting where
  | post_meta_recv_wr (meta_recv : UInt64) (lkey : UInt32)
  | post_meta_send_wr (meta_send : UInt64) (lkey : UInt32)
  | rdma_op (dma_type : DmaType) (info : RdmaMemInfo)
  deriving DecidableEq, Repr

/-- The `wr_id` of the work request that the object `this` posts. -/
def Posting.wr_id (this : UInt64) : Posting → UInt64
  | .post_meta_recv_wr meta_recv lkey => (meta_recv_wr this meta_recv lkey).wr_id
  | .post_meta_send_wr meta_send lkey => (meta_send_wr this meta_send lkey).wr_id
  | .rdma_op dma_type info => (rdma_op_wr this dma_type info).wr_id

/-- Every work request carries the address of the object that posted it. -/
theorem Posting.wr_id_eq (this : UInt64) (posting : Posting) : posting.wr_id this = this := by
  cases posting with
  | post_meta_recv_wr => rfl
  | post_meta_send_wr => rfl
  | rdma_op dma_type info =>
    unfold Posting.wr_id rdma_op_wr
    cases dma_type with
    | RDMA_REMOTE_WRITE =>
      dsimp only
      split <;> rfl
    | RDMA_REMOTE_READ => rfl

end tc_rdma.rdma_com
