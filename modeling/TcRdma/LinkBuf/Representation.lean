import TcRdma.LinkBuf.Moves

open tc_rdma.machine

namespace tc_rdma.link_buf

variable {ο : Type} [DecidableEq ο] {mem : Arrays} {o r : ο} {b : BufObject} {id : Nat} {slots : List Nat}
  {s next : Objects ο} {act : ObjectAct ο}

/-- What has to hold of the objects and their memory: each object has slots of
its own, as many as its capacity says, every use of them stays inside them, and
an array is deleted once, after its last owner is done with it. -/
structure Objects.Sound (s : Objects ο) : Prop where
  fault : s.fault = none
  shape : ∀ o b, s.objs o = some b → (b.m_capacity = 0 ∧ b.m_links = none) ∨
    ∃ id slots, b.m_links = some id ∧ s.mem.slots id = some slots ∧ slots.length = b.m_capacity
  clear : ∀ o b, s.objs o = some b → ∃ result, b.clear_links s.mem = .ok result
  access : ∀ o b position value, s.objs o = some b → b.m_capacity ≠ 0 →
    ∃ mem, b.store_slot s.mem (b.slot_index position) value = .ok mem
  unique : ∀ o o' b b' id, s.objs o = some b → b.m_links = some id → s.objs o' = some b' →
    b'.m_links = some id → o = o'
  kept : ∀ o b id, s.objs o = some b → b.m_links = some id → .delete_array id ∉ s.mem.log
  deleted : ∀ id, .new_array id ∈ s.mem.log → (∀ o b, s.objs o = some b → b.m_links ≠ some id) →
    s.mem.log.count (.delete_array id) = 1

/-- The target of a move has the capacity, the tail and the slots that the
source had. -/
def TargetHas (s next : Objects ο) (o r : ο) : Prop :=
  ∀ b, s.objs r = some b → ∃ b', next.objs o = some b' ∧ b'.m_capacity = b.m_capacity ∧ b'.m_tail = b.m_tail ∧
    b'.m_links.bind next.mem.slots = b.m_links.bind s.mem.slots

/-- The target and the source of a move. -/
def ObjectAct.moves : ObjectAct ο → Option (ο × ο)
  | .move_construct o r => some (o, r)
  | .move_assign o r => some (o, r)
  | _ => none

def Objects.MoveKept (s : Objects ο) (act : ObjectAct ο) : Prop :=
  ∀ next o r, s.step act = some next → act.moves = some (o, r) → TargetHas s next o r

/-- Only objects without a capacity are moved from. -/
def Objects.MovesEmpty (s : Objects ο) (act : ObjectAct ο) : Prop :=
  ∀ o r b, act.moves = some (o, r) → s.objs r = some b → b.m_capacity = 0

/-- An object without an array is one without a capacity. -/
def Objects.Shaped (s : Objects ο) : Prop := ∀ o b, s.objs o = some b → (b.m_links = none ↔ b.m_capacity = 0)

theorem BufObject.slot_index_lt (b : BufObject) (hcapacity : b.m_capacity ≠ 0) (position : Nat) :
    b.slot_index position < b.m_capacity := by
  have hand : position &&& u64_sub b.m_capacity 1 ≤ u64_sub b.m_capacity 1 := Nat.and_le_right
  have hmask : u64_sub b.m_capacity 1 ≤ b.m_capacity - 1 := by
    simp only [u64_sub, u64]
    omega
  rw [BufObject.slot_index]
  omega

theorem BufObject.store_slot_ok {index : Nat} (value : Nat) (hid : b.m_links = some id)
    (hslots : mem.slots id = some slots) (hindex : index < slots.length) :
    b.store_slot mem index value =
      .ok { mem with slots := Function.update mem.slots id (some (slots.set index value)) } := by
  simp only [BufObject.store_slot, hid, hslots, if_pos hindex]

/-- The loop of `clear_links` stays inside an array that is large enough. -/
theorem BufObject.clear_slots_ok {i n : Nat} (hid : b.m_links = some id) (hslots : mem.slots id = some slots)
    (hfits : i + n ≤ slots.length) : ∃ mem', b.clear_slots mem i n = .ok mem' := by
  induction n generalizing i mem slots with
  | zero => exact ⟨mem, rfl⟩
  | succ n ih =>
    have hstore := BufObject.store_slot_ok 0 hid hslots (by omega : i < slots.length)
    rw [BufObject.clear_slots, hstore]
    exact ih (Function.update_self _ _ _) (by rw [List.length_set]; omega)

theorem count_delete (log : List ArrayOp) (id : Nat) :
    log.count (.delete_array id) = (slot_arrays.destroyed log).count id := by
  induction log with
  | nil => rfl
  | cons op log ih =>
    cases op with
    | new_array other =>
      have hskip : slot_arrays.destroyed (.new_array other :: log) = slot_arrays.destroyed log := rfl
      rw [hskip, List.count_cons_of_ne (by simp), ih]
    | delete_array other =>
      have htake : slot_arrays.destroyed (.delete_array other :: log) = other :: slot_arrays.destroyed log := rfl
      rw [htake, List.count_cons, List.count_cons, ih]
      simp

theorem mem_created {log : List ArrayOp} : id ∈ slot_arrays.created log ↔ .new_array id ∈ log := by
  induction log with
  | nil => simp [Ledger.created]
  | cons op log ih =>
    cases op with
    | new_array other =>
      have htake : slot_arrays.created (.new_array other :: log) = other :: slot_arrays.created log := rfl
      rw [htake, List.mem_cons, List.mem_cons, ih, ArrayOp.new_array.injEq]
    | delete_array other =>
      have hskip : slot_arrays.created (.delete_array other :: log) = slot_arrays.created log := rfl
      rw [hskip, List.mem_cons, ih]
      simp

theorem ArraysOk.mem_created_of_slots (h : ArraysOk mem) (hslots : mem.slots id = some slots) :
    id ∈ slot_arrays.created mem.log := by
  obtain ⟨ids, hholding, hids⟩ := h.holding
  have hmem : id ∈ ids := by
    rw [hids, hslots]
    rfl
  exact hholding.left.mem_iff.mpr (List.mem_append_right _ hmem)

omit [DecidableEq ο] in
theorem Owned.sound (h : Owned s.objs s.mem) (hshaped : s.Shaped) (hfault : s.fault = none) : s.Sound := by
  have hshape : ∀ o b, s.objs o = some b → (b.m_capacity = 0 ∧ b.m_links = none) ∨
      ∃ id slots, b.m_links = some id ∧ s.mem.slots id = some slots ∧ slots.length = b.m_capacity := by
    intro o b hb
    cases hlinks : b.m_links with
    | none => exact .inl ⟨(hshaped o b hb).mp hlinks, rfl⟩
    | some id =>
      obtain ⟨slots, hslots, hsize⟩ := h.array o b id hb hlinks
      exact .inr ⟨id, slots, rfl, hslots, hsize⟩
  constructor
  · exact hfault
  · exact hshape
  · intro o b hb
    rcases hshape o b hb with ⟨hzero, -⟩ | ⟨id, slots, hid, hslots, hsize⟩
    · exact ⟨({ b with m_tail := 0 }, s.mem), by rw [BufObject.clear_links, hzero]; rfl⟩
    · obtain ⟨mem, hclear⟩ := BufObject.clear_slots_ok (i := 0) (n := b.m_capacity) hid hslots (by omega)
      exact ⟨({ b with m_tail := 0 }, mem), by rw [BufObject.clear_links, hclear]⟩
  · intro o b position value hb hcapacity
    rcases hshape o b hb with ⟨hzero, -⟩ | ⟨id, slots, hid, hslots, hsize⟩
    · exact absurd hzero hcapacity
    · have hindex := b.slot_index_lt hcapacity position
      exact ⟨_, BufObject.store_slot_ok _ hid hslots (by omega)⟩
  · exact h.unique
  · intro o b id hb hid hdeleted
    obtain ⟨slots, hslots, -⟩ := h.array o b id hb hid
    have hcount := h.arrays.count_destroyed (h.arrays.mem_created_of_slots hslots)
    rw [hslots, ← count_delete, Option.isSome_some, if_pos rfl] at hcount
    exact absurd hdeleted (List.count_eq_zero.mp hcount)
  · intro id hcreated hnobody
    have hcount := h.arrays.count_destroyed (mem_created.mpr hcreated)
    rw [count_delete, hcount, if_neg]
    intro hlive
    obtain ⟨slots, hslots⟩ := Option.isSome_iff_exists.mp hlive
    obtain ⟨o, b, hb, hid⟩ := h.owner id slots hslots
    exact hnobody o b hb hid

/-- What a step makes of the objects when it is a move. -/
theorem Objects.step_moved (h : Owned s.objs s.mem) (hstep : s.step act = some next)
    (hmoves : act.moves = some (o, r)) : ∃ rhs, s.objs r = some rhs ∧ Moved s o r rhs next := by
  cases (Objects.step_move hstep).2 with
  | construct o capacity ho => cases hmoves
  | construct_default o ho => cases hmoves
  | move_construct o r rhs ho hrhs =>
    cases hmoves
    have hne : o ≠ r := by
      rintro rfl
      rw [ho] at hrhs
      cases hrhs
    exact ⟨rhs, hrhs, h.move_construct (by rw [ho]; exact idle_none) hne hrhs⟩
  | move_assign o r self rhs hself hrhs _ hmove =>
    cases hmoves
    obtain ⟨next', hmove', hmoved⟩ := h.move_assign hself hrhs
    rw [hmove] at hmove'
    cases hmove'
    exact ⟨rhs, hrhs, hmoved⟩
  | destroy o self b mem hself hfree => cases hmoves
  | destroy_fault o self fault hself hfree => cases hmoves
  | use _ hact =>
    cases act with
    | move_construct o r => exact hact.elim
    | move_assign o r => exact hact.elim
    | _ => cases hmoves
  | misuse _ hact =>
    cases act with
    | move_construct o r => exact hact.elim
    | move_assign o r => exact hact.elim
    | _ => cases hmoves

omit [DecidableEq ο] in
/-- Without a capacity to move, arrays and capacities still go together. -/
theorem Moved.shaped {rhs : BufObject} (h : Moved s o r rhs next) (hshaped : s.Shaped) (hrhs : s.objs r = some rhs)
    (hempty : rhs.m_capacity = 0) : next.Shaped := by
  intro q b hb
  obtain ⟨d, hd, hlinks, hcapacity, -⟩ := h.source
  by_cases hqr : q = r
  · subst hqr
    rw [hd] at hb
    cases hb
    rw [hlinks, hcapacity, hempty]
    simp
  · by_cases hqo : q = o
    · subst hqo
      rw [h.target hqr] at hb
      cases hb
      exact hshaped r rhs hrhs
    · rw [h.others q hqo hqr] at hb
      exact hshaped q b hb

omit [DecidableEq ο] in
theorem Moved.target_has {rhs : BufObject} (h : Moved s o r rhs next) (hshaped : s.Shaped)
    (hrhs : s.objs r = some rhs) (hempty : rhs.m_capacity = 0) : TargetHas s next o r := by
  intro b hb
  rw [hrhs] at hb
  cases hb
  by_cases hne : o = r
  · subst hne
    obtain ⟨d, hd, hlinks, hcapacity, htail⟩ := h.source
    refine ⟨d, hd, hcapacity, htail, ?_⟩
    rw [hlinks, (hshaped o rhs hrhs).mpr hempty]
    rfl
  · exact ⟨rhs, h.target hne, rfl, rfl, h.slots hne⟩

omit [DecidableEq ο] in
/-- A move from an object with a capacity leaves it with this capacity and
without slots. -/
theorem Moved.empty_of_sound {rhs : BufObject} (h : Moved s o r rhs next) (hsound : next.Sound) :
    rhs.m_capacity = 0 := by
  obtain ⟨d, hd, hlinks, hcapacity, -⟩ := h.source
  rcases hsound.shape r d hd with ⟨hzero, -⟩ | ⟨id, slots, hid, -⟩
  · exact hcapacity.symm.trans hzero
  · rw [hlinks] at hid
    cases hid

theorem Objects.Shaped.put (h : s.Shaped) (hb : b.m_links = none ↔ b.m_capacity = 0) (mem : Arrays) :
    { s with objs := Function.update s.objs o (some b), mem := mem }.Shaped := by
  intro q c hc
  rcases update_eq_some hc with ⟨-, hbc⟩ | ⟨-, hc⟩
  · cases hbc
    exact hb
  · exact h q c hc

theorem Objects.shaped_step (h : Owned s.objs s.mem) (hshaped : s.Shaped) (hempty : s.MovesEmpty act)
    (hstep : s.step act = some next) : next.Shaped ∧ next.fault = none := by
  obtain ⟨hfault, hmove⟩ := Objects.step_move hstep
  have hsound := h.sound hshaped hfault
  cases hmoves : act.moves with
  | some ends =>
    obtain ⟨o, r⟩ := ends
    obtain ⟨rhs, hrhs, hmoved⟩ := Objects.step_moved h hstep hmoves
    exact ⟨hmoved.shaped hshaped hrhs (hempty o r rhs hmoves hrhs), hmoved.fault.trans hfault⟩
  | none =>
    cases hmove with
    | construct o capacity ho =>
      have hpos := capacity.pos
      have hne : capacity.val ≠ 0 := by omega
      exact ⟨hshaped.put (by simp [hne]) _, hfault⟩
    | construct_default o ho => exact ⟨hshaped.put (by simp) _, hfault⟩
    | move_construct o r rhs ho hrhs => cases hmoves
    | move_assign o r self rhs hself hrhs _ hmove => cases hmoves
    | destroy o self b mem hself hfree =>
      refine ⟨?_, hfault⟩
      intro q c hc
      rcases update_eq_some hc with ⟨-, hnone⟩ | ⟨-, hc⟩
      · cases hnone
      · exact hshaped q c hc
    | destroy_fault o self fault hself hfree =>
      obtain ⟨b, mem, hfree', -⟩ := h.free hself
      rw [hfree] at hfree'
      cases hfree'
    | use _ hact o self b mem hself hlinks hcapacity howned =>
      refine ⟨hshaped.put ?_ mem, hfault⟩
      rw [hlinks, hcapacity]
      exact hshaped o self hself
    | misuse _ hact o self hself fault hfault' =>
      rcases hfault' with ⟨position, value, hcapacity, hstore⟩ | hclear
      · obtain ⟨mem, hok⟩ := hsound.access o self position value hself hcapacity
        rw [hstore] at hok
        cases hok
      · obtain ⟨result, hok⟩ := hsound.clear o self hself
        rw [hclear] at hok
        cases hok

variable {acts : List (ObjectAct ο)} {last : Objects ο}

theorem Objects.owned_run (hrun : run Objects.step (.new ο) acts = some s) : Owned s.objs s.mem :=
  run_invariant (I := fun s => Owned s.objs s.mem) (fun _ _ _ h hstep => Objects.owned_step h hstep)
    (owned_new ο) hrun

theorem Objects.shaped_run (hmeet : StepsMeet Objects.step Objects.MovesEmpty (.new ο) acts)
    (hrun : run Objects.step (.new ο) acts = some s) : s.Shaped ∧ s.fault = none := by
  have hstart : Owned (Objects.new ο).objs (Objects.new ο).mem ∧ (Objects.new ο).Shaped ∧
      (Objects.new ο).fault = none := by
    refine ⟨owned_new ο, ?_, rfl⟩
    intro o b hb
    cases hb
  refine (run_invariant_of_meet (I := fun s => Owned s.objs s.mem ∧ s.Shaped ∧ s.fault = none) ?_ hmeet hstart
    hrun).2
  intro s act next hempty h hstep
  exact ⟨Objects.owned_step h.1 hstep, Objects.shaped_step h.1 h.2.1 hempty hstep⟩

/-- In every state of the run the objects are sound, and every move of the run
hands over what it should. -/
def SoundRun (ο : Type) [DecidableEq ο] (acts : List (ObjectAct ο)) : Prop :=
  (∀ front s, front <+: acts → run Objects.step (.new ο) front = some s → s.Sound) ∧
    StepsMeet Objects.step Objects.MoveKept (.new ο) acts

/-- Objects are sound throughout a run exactly when none that has a capacity is
moved from: such an object keeps its capacity and loses its slots, to itself
even. -/
theorem soundRun_iff (hrun : run Objects.step (.new ο) acts = some last) :
    SoundRun ο acts ↔ StepsMeet Objects.step Objects.MovesEmpty (.new ο) acts := by
  constructor
  · rintro ⟨hsound, -⟩ front act back mid rfl hmid o r b hmoves hb
    obtain ⟨mid', hmid', hrest⟩ := run_append_eq_some.mp hrun
    rw [hmid] at hmid'
    cases hmid'
    obtain ⟨next, hstep, -⟩ := run_cons_eq_some.mp hrest
    obtain ⟨rhs, hrhs, hmoved⟩ := Objects.step_moved (Objects.owned_run hmid) hstep hmoves
    rw [hb] at hrhs
    cases hrhs
    have hfront : front ++ [act] <+: front ++ act :: back := ⟨back, by simp⟩
    have hnext := run_append_of_eq_some hmid (run_singleton_of_step hstep)
    exact hmoved.empty_of_sound (hsound _ next hfront hnext)
  · intro hmeet
    constructor
    · rintro front s ⟨back, rfl⟩ hfront
      obtain ⟨hshaped, hfault⟩ := Objects.shaped_run hmeet.of_append hfront
      exact (Objects.owned_run hfront).sound hshaped hfault
    · rintro front act back mid rfl hmid next o r hstep hmoves
      have hempty := hmeet front act back mid rfl hmid
      have howned := Objects.owned_run hmid
      obtain ⟨rhs, hrhs, hmoved⟩ := Objects.step_moved howned hstep hmoves
      have hshaped := (Objects.shaped_run hmeet.of_append hmid).1
      exact hmoved.target_has hshaped hrhs (hempty o r rhs hmoves hrhs)

def twoSlots : Capacity := ⟨2, by decide, by decide, by decide⟩

/-- After a move construction the source has two slots by its capacity, and
none in memory. -/
theorem not_soundRun_of_moved :
    ¬ ∀ (acts : List (ObjectAct Nat)) last, run Objects.step (.new Nat) acts = some last → SoundRun Nat acts := by
  intro hall
  have hsound := (hall [.construct 0 twoSlots, .move_construct 1 0] _ rfl).1 _ _ List.prefix_rfl rfl
  rcases hsound.shape 0 ⟨2, none, 0⟩ rfl with ⟨hzero, -⟩ | ⟨id, slots, hid, -⟩
  · cases hzero
  · cases hid

theorem soundRun_iff_assigned :
    ∃ last, run Objects.step (.new Nat)
        [.construct 0 twoSlots, .store 0 3 7, .construct_default 1, .move_assign 0 1, .destroy 1] = some last ∧
      (SoundRun Nat [.construct 0 twoSlots, .store 0 3 7, .construct_default 1, .move_assign 0 1, .destroy 1] ↔
        StepsMeet Objects.step Objects.MovesEmpty (.new Nat)
          [.construct 0 twoSlots, .store 0 3 7, .construct_default 1, .move_assign 0 1, .destroy 1]) :=
  ⟨_, rfl, soundRun_iff rfl⟩

end tc_rdma.link_buf
