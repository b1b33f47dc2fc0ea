import TcRdma.MemMag.BlockOwnership
import TcRdma.MemMag.Pool

open tc_rdma.machine

namespace tc_rdma.mem_mag

variable {T : Nat}

/-- What happens to the blocks of a pool: one is constructed, it makes a call,
or it is freed. A block is known by its offset. -/
inductive ArenaOp where
  | new_block (voff : Nat)
  | block (op : BlockOp)
  | free_block (voff : Nat)
  deriving DecidableEq, Repr

def ArenaOp.block? : ArenaOp → Option BlockOp
  | .block op => some op
  | _ => none

/-- The registrations of all blocks. -/
def pool_registrations : Ledger ArenaOp IbvMr := registrations.comap ArenaOp.block?

/-- The memory of all blocks. -/
def pool_allocations : Ledger ArenaOp Nat := allocations.comap ArenaOp.block?

/-- The blocks themselves. -/
def pool_blocks : Ledger ArenaOp Nat where
  creates
    | .new_block voff => some voff
    | _ => none
  destroys
    | .free_block voff => some voff
    | _ => none
  exclusive := by
    intro op voff hcreates
    cases op <;> first | rfl | cases hcreates

/-- A pool and all that has been done with its blocks. -/
structure Arena (T : Nat) where
  pool : Pool T
  log : List ArenaOp

def Arena.new (T block_len max : Nat) : Arena T := { pool := .new T block_len max, log := [] }

/-- What `new pinned_block(start, block_length)` and the `reg_alloc_local` that
follows do. -/
def alloc_ops (start block_length pd flags : Nat) (mem reg : Option Nat) : List ArenaOp :=
  .new_block start ::
    (((BlockLife.new start block_length).step (.reg_alloc_local pd flags mem reg)).elim [] fun life =>
      life.log.map .block)

def Arena.ops (s : Arena T) : Fin T × AllocAct → List ArenaOp
  | (t, .reg_alloc mem reg) =>
    match s.pool.pc t with
    | .fits pd flags start => alloc_ops start s.pool.mem.block_length pd flags mem reg
    | _ => []
  | _ => []

def Arena.step (s : Arena T) (label : Fin T × AllocAct) : Option (Arena T) :=
  (s.pool.step label).map fun pool => { pool := pool, log := s.log ++ s.ops label }

/-- The blocks that exist, with what they own. -/
structure Stock (held : List PinnedBlock) (log : List ArenaOp) : Prop where
  registered : pool_registrations.Holding log (held.filterMap PinnedBlock.live)
  allocated : pool_allocations.Holding log (held.filterMap PinnedBlock.local_mem)
  constructed : pool_blocks.Holding log (held.map PinnedBlock.virtual_offset)

variable {held held' : List PinnedBlock} {log : List ArenaOp} {block : PinnedBlock}

theorem stock_nil : Stock [] [] where
  registered := Ledger.holding_nil _
  allocated := Ledger.holding_nil _
  constructed := Ledger.holding_nil _

theorem Stock.perm (h : Stock held log) (hperm : held.Perm held') : Stock held' log where
  registered := h.registered.perm (hperm.filterMap _)
  allocated := h.allocated.perm (hperm.filterMap _)
  constructed := h.constructed.perm (hperm.map _)

theorem filterMap_cons_toList {α β : Type} (f : α → Option β) (a : α) (l : List α) :
    (a :: l).filterMap f = (f a).toList ++ l.filterMap f := by
  rw [List.filterMap_cons]
  cases f a <;> rfl

/-- A new block brings what its own calls have obtained. -/
theorem Stock.construct (h : Stock held log) {blog : List BlockOp} (howned : Owned block blog) :
    Stock (block :: held) (log ++ .new_block block.virtual_offset :: blog.map .block) := by
  rw [List.append_cons]
  constructor
  · rw [filterMap_cons_toList]
    exact (h.registered.ignore ⟨rfl, rfl⟩).append (howned.registered.comap_map fun _ => rfl)
  · rw [filterMap_cons_toList]
    exact (h.allocated.ignore ⟨rfl, rfl⟩).append (howned.allocated.comap_map fun _ => rfl)
  · have hcreated := h.constructed.create (x := .new_block block.virtual_offset) rfl
    apply hcreated.extend (Extends.of_map _ _ _)
    rintro _ ⟨op, rfl⟩
    exact ⟨rfl, rfl⟩

theorem PinnedBlock.unreg_local_mr_fst (self : PinnedBlock) : self.unreg_local_mr.1 = self.live := by
  unfold PinnedBlock.unreg_local_mr PinnedBlock.live
  cases self.pinned with
  | false => rfl
  | true => cases self.mr <;> rfl

theorem PinnedBlock.unreg_local_mr_local_mem (self : PinnedBlock) :
    self.unreg_local_mr.2.local_mem = self.local_mem := by
  unfold PinnedBlock.unreg_local_mr
  split <;> rfl

theorem PinnedBlock.unreg_free_local_fst (self : PinnedBlock) : self.unreg_free_local.1 = self.live := by
  rw [← self.unreg_local_mr_fst]
  unfold PinnedBlock.unreg_free_local
  dsimp only
  split <;> rfl

theorem PinnedBlock.unreg_free_local_snd (self : PinnedBlock) : self.unreg_free_local.2.1 = self.local_mem := by
  rw [← self.unreg_local_mr_local_mem]
  unfold PinnedBlock.unreg_free_local
  dsimp only
  split
  · rename_i hmem
    exact hmem.symm
  · rename_i hmem
    exact hmem.symm

/-- What the destructor of the pool does with one block. -/
def destroy_ops (block : PinnedBlock) : List ArenaOp :=
  (PinnedBlock.unreg_ops block.unreg_free_local.1 ++ PinnedBlock.free_ops block.unreg_free_local.2.1).map .block ++
    [.free_block block.virtual_offset]

/-- Once destroyed, a block owns nothing any more. -/
theorem Stock.destruct (h : Stock (block :: held) log) : Stock held (log ++ destroy_ops block) := by
  have hregistered := h.registered
  have hallocated := h.allocated
  rw [filterMap_cons_toList] at hregistered hallocated
  have hops : log ++ destroy_ops block = log ++ block.live.toList.map (fun mr => .block (.ibv_dereg_mr mr)) ++
      block.local_mem.toList.map (fun mem => .block (.free mem)) ++ [.free_block block.virtual_offset] := by
    simp [destroy_ops, PinnedBlock.unreg_ops, PinnedBlock.free_ops, PinnedBlock.unreg_free_local_fst,
      PinnedBlock.unreg_free_local_snd, Function.comp_def]
  rw [hops]
  constructor
  · refine ((hregistered.destroy_toList fun _ => rfl).extend (Extends.of_map _ _ _) ?_).ignore ⟨rfl, rfl⟩
    rintro _ ⟨mem, rfl⟩
    exact ⟨rfl, rfl⟩
  · refine ((hallocated.extend (Extends.of_map _ _ _) ?_).destroy_toList fun _ => rfl).ignore ⟨rfl, rfl⟩
    rintro _ ⟨mr, rfl⟩
    exact ⟨rfl, rfl⟩
  · have hconstructed : pool_blocks.Holding log (block.virtual_offset :: held.map PinnedBlock.virtual_offset) :=
      h.constructed
    refine ((hconstructed.extend (Extends.of_map _ _ _) ?_).extend (Extends.of_map _ _ _) ?_).destroy rfl
    · rintro _ ⟨mr, rfl⟩
      exact ⟨rfl, rfl⟩
    · rintro _ ⟨mem, rfl⟩
      exact ⟨rfl, rfl⟩

/-- The thread carries this block to its slot. -/
def AllocPc.carries (block : PinnedBlock) : AllocPc → Bool
  | .registered _ b => b == block
  | _ => false

/-- The blocks in the slots and on the way to them are those that exist, as
long as nothing has failed; a call that failed does not return. -/
structure Arena.Tracks (s : Arena T) : Prop where
  stock : s.pool.fault = none → ∃ held, Stock held s.log ∧
    ∀ b, held.count b = s.pool.mem.blocks.count (some b) + count (AllocPc.carries b) s.pool.pc
  busy : s.pool.fault ≠ none → ∃ t, s.pool.pc t ≠ .idle

theorem Arena.tracks_new (T block_len max : Nat) : (Arena.new T block_len max).Tracks where
  stock := by
    intro _
    refine ⟨[], stock_nil, ?_⟩
    intro b
    simp [Arena.new, Pool.new, PinnedFixMemory.new, count, AllocPc.carries, List.count_replicate]
  busy := by
    intro hfault
    exact absurd rfl hfault

theorem Arena.step_eq_some {s next : Arena T} {label : Fin T × AllocAct} (hstep : s.step label = some next) :
    s.pool.step label = some next.pool ∧ next.log = s.log ++ s.ops label := by
  obtain ⟨pool, hpool, rfl⟩ := Option.map_eq_some_iff.mp hstep
  exact ⟨hpool, rfl⟩

/-- What a call that gets its memory and its registration has done. -/
theorem alloc_ops_eq {start bl pd flags : Nat} {mem reg : Option Nat} {mr : Option IbvMr}
    (hreg : (PinnedBlock.new start bl).reg_alloc_local pd flags mem reg = .ok (mr, block)) :
    ∃ blog, alloc_ops start bl pd flags mem reg = .new_block block.virtual_offset :: blog.map .block ∧
      Owned block blog := by
  have hstep : (BlockLife.new start bl).step (.reg_alloc_local pd flags mem reg) =
      some ⟨block, [.aligned_alloc mem] ++ { PinnedBlock.new start bl with local_mem := mem }.reg_ops mr, none⟩ := by
    simp [BlockLife.step, BlockLife.new, hreg]
  refine ⟨_, ?_, (owned_new start bl).step hstep⟩
  obtain ⟨-, -, hresult⟩ := PinnedBlock.reg_alloc_local_eq_ok hreg
  have hkeeps := ({ PinnedBlock.new start bl with local_mem := mem }.reg_local_mr_keeps pd flags reg).1
  rw [← hresult] at hkeeps
  rw [alloc_ops, hstep, hkeeps]
  rfl

@[simp] theorem Pool.record_mem (s : Pool T) (event : AllocEvent) : (s.record event).mem = s.mem := by
  cases event <;> rfl

@[simp] theorem Pool.record_pc (s : Pool T) (event : AllocEvent) : (s.record event).pc = s.pc := by
  cases event <;> rfl

@[simp] theorem Pool.record_fault (s : Pool T) (event : AllocEvent) : (s.record event).fault = s.fault := by
  cases event <;> rfl

/-- A step that neither touches a slot nor lets go of a block. -/
theorem Arena.Tracks.still {s next : Arena T} (h : s.Tracks) (hfault : s.pool.fault = none) {t : Fin T} {pc : AllocPc}
    {mem : PinnedFixMemory} {event : AllocEvent}
    (hnext : next.pool = { s.pool with mem := mem, pc := Function.update s.pool.pc t pc }.record event)
    (hblocks : mem.blocks = s.pool.mem.blocks) (hlog : next.log = s.log)
    (hcarries : ∀ b, AllocPc.carries b pc = AllocPc.carries b (s.pool.pc t)) : next.Tracks := by
  obtain ⟨held, hstock, hcount⟩ := h.stock hfault
  refine ⟨fun _ => ⟨held, hlog ▸ hstock, ?_⟩, fun hsome => ?_⟩
  · intro b
    rw [hcount b, hnext, Pool.record_mem, Pool.record_pc, hblocks, count_update_of_eq (hcarries b)]
  · rw [hnext, Pool.record_fault] at hsome
    exact absurd hfault hsome

theorem Arena.Tracks.step {s next : Arena T} {label : Fin T × AllocAct} (h : s.Tracks)
    (hstep : s.step label = some next) : next.Tracks := by
  obtain ⟨hpool, hlog⟩ := Arena.step_eq_some hstep
  obtain ⟨t, act⟩ := label
  obtain ⟨hfault, ⟨fault, hmove, hnext⟩ | ⟨mem, pc, event, hmove, hnext⟩⟩ := Pool.step_cases hpool
  · -- the thread that fails stays where it is
    refine ⟨fun hnone => ?_, fun _ => ⟨t, ?_⟩⟩
    · rw [hnext] at hnone
      cases hnone
    · rw [hnext]
      dsimp only at hmove ⊢
      intro hidle
      rw [hidle] at hmove
      cases hmove
  · dsimp only at hmove hnext
    generalize hpc : s.pool.pc t = old at hmove
    cases hmove with
    | call pd flags => exact h.still hfault hnext rfl (by simp [hlog, Arena.ops]) (by simp [hpc, AllocPc.carries])
    | fetch_add pd flags => exact h.still hfault hnext rfl (by simp [hlog, Arena.ops]) (by simp [hpc, AllocPc.carries])
    | fits pd flags start hfits =>
      exact h.still hfault hnext rfl (by simp [hlog, Arena.ops]) (by simp [hpc, AllocPc.carries])
    | refuse pd flags start hfull =>
      exact h.still hfault hnext rfl (by simp [hlog, Arena.ops]) (by simp [hpc, AllocPc.carries])
    | fetch_sub => exact h.still hfault hnext rfl (by simp [hlog, Arena.ops]) (by simp [hpc, AllocPc.carries])
    | reg_alloc pd flags start local_mem reg mr block hreg =>
      obtain ⟨held, hstock, hcount⟩ := h.stock hfault
      obtain ⟨blog, hops, howned⟩ := alloc_ops_eq hreg
      have hnew : next.log = s.log ++ .new_block block.virtual_offset :: blog.map .block := by
        rw [hlog, ← hops, Arena.ops, hpc]
      refine ⟨fun _ => ⟨block :: held, hnew ▸ hstock.construct howned, ?_⟩, fun hsome => ?_⟩
      · intro b
        have hupdate := count_update (AllocPc.carries b) s.pool.pc t
          (.registered (start / s.pool.mem.block_length) block)
        rw [hpc, show AllocPc.carries b (.fits pd flags start) = false from rfl,
          show AllocPc.carries b (.registered (start / s.pool.mem.block_length) block) = (block == b) from rfl]
          at hupdate
        rw [hnext, List.count_cons, hcount b]
        simp only [Pool.record_mem, Pool.record_pc]
        cases heq : block == b <;> simp [heq] at hupdate ⊢ <;> omega
      · rw [hnext] at hsome
        exact absurd hfault hsome
    | publish idx block hslot =>
      obtain ⟨held, hstock, hcount⟩ := h.stock hfault
      obtain ⟨hidx, hempty⟩ := List.getElem?_eq_some_iff.mp hslot
      have hsame : next.log = s.log := by simp [hlog, Arena.ops]
      refine ⟨fun _ => ⟨held, hsame ▸ hstock, ?_⟩, fun hsome => ?_⟩
      · intro b
        have hupdate := count_update (AllocPc.carries b) s.pool.pc t .idle
        rw [hpc, show AllocPc.carries b (.registered idx block) = (block == b) from rfl,
          show AllocPc.carries b .idle = false from rfl] at hupdate
        rw [hnext, hcount b]
        simp only [Pool.record_mem, Pool.record_pc]
        rw [List.count_set hidx, hempty]
        cases heq : block == b <;> simp [heq] at hupdate ⊢ <;> omega
      · rw [hnext] at hsome
        exact absurd hfault hsome

/-- Once every call has returned, the blocks that exist are those in the slots. -/
theorem Arena.stock_of_quiescent {block_len max : Nat} {labels : List (Fin T × AllocAct)} {s : Arena T}
    (hrun : run Arena.step (Arena.new T block_len max) labels = some s) (hq : s.pool.Quiescent) :
    Stock (s.pool.mem.blocks.filterMap id) s.log := by
  have h : s.Tracks := run_invariant (fun _ _ _ h hstep => h.step hstep) (Arena.tracks_new T block_len max) hrun
  have hfault : s.pool.fault = none := by
    by_contra hsome
    obtain ⟨t, ht⟩ := h.busy hsome
    exact ht (hq t)
  obtain ⟨held, hstock, hcount⟩ := h.stock hfault
  apply hstock.perm
  rw [List.perm_iff_count]
  intro b
  have hidle : count (AllocPc.carries b) s.pool.pc = 0 := by
    rw [count_eq_zero_iff]
    intro t
    rw [hq t]
    rfl
  rw [hcount b, hidle, Nat.add_zero, List.count_filterMap, List.count_eq_countP]
  rfl

end tc_rdma.mem_mag
