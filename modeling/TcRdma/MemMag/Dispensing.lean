import TcRdma.Machine.Dispenser
import TcRdma.MemMag.Pool

open tc_rdma.machine

namespace tc_rdma.mem_mag

variable {bl max T : Nat}

/-- The slot a thread has claimed and not yet filled. -/
def AllocPc.slot (bl max : Nat) : AllocPc → Option Nat
  | .claimed _ _ start => if start + bl ≤ max then some (start / bl) else none
  | .fits _ _ start => some (start / bl)
  | .registered idx _ => some idx
  | _ => none

/-- The thread has added to `next_offset` in vain and will subtract again. -/
def AllocPc.refusing (bl max : Nat) : AllocPc → Bool
  | .claimed _ _ start => decide (max < start + bl)
  | .refused => true
  | _ => false

def AllocPc.busy : AllocPc → Bool
  | .idle => false
  | _ => true

/-- What a thread knows of the values it carries. -/
def AllocPc.Sound (bl : Nat) : AllocPc → Prop
  | .claimed _ _ start => bl ∣ start ∧ start + bl < 2 ^ 64
  | .fits _ _ start => bl ∣ start
  | .registered idx block => block.virtual_offset = idx * bl ∧ block.mem_length = bl
  | _ => True

/-- The slots against the threads that claim them. Places below `issued` are
filled or claimed by exactly one thread; the others are untouched. -/
structure Slots (bl max : Nat) (issued : Nat) (blocks : List (Option PinnedBlock))
    (pc : Fin T → AllocPc) : Prop where
  sound : ∀ t, (pc t).Sound bl
  held : ∀ t i, (pc t).slot bl max = some i → i < issued ∧ blocks[i]? = some none
  unique : ∀ t u i, (pc t).slot bl max = some i → (pc u).slot bl max = some i → t = u
  covered : ∀ i, i < issued → (∃ b, blocks[i]? = some (some b)) ∨ ∃ t, (pc t).slot bl max = some i
  filled : ∀ i b, blocks[i]? = some (some b) → i < issued ∧ b.virtual_offset = i * bl ∧ b.mem_length = bl

/-- The record of finished calls against the slots. -/
structure History (issued capacity : Nat) (s : Pool T) : Prop where
  published_iff : ∀ i, i ∈ s.published ↔ ∃ b, s.mem.blocks[i]? = some (some b)
  nodup : s.published.Nodup
  trues : s.returned.count true = s.published.length
  falses : false ∈ s.returned → issued = capacity
  calls : s.calls = s.returned.length + count AllocPc.busy s.pc

/-- A pool refines a dispenser of `max / block_length` places. The counter is
the number of places handed out plus the number of calls that are about to
undo their addition, and there is such a call only when no place is left. -/
structure Pool.Dispensing (bl max : Nat) (s : Pool T) (d : Dispenser) : Prop where
  no_fault : s.fault = none
  block_length : s.mem.block_length = bl
  max_size : s.mem.max_size = max
  size : s.mem.blocks.length = d.capacity
  capacity : d.capacity = max / bl
  offset : s.mem.next_offset = bl * (d.issued + count (AllocPc.refusing bl max) s.pc)
  full : 0 < count (AllocPc.refusing bl max) s.pc → d.issued = d.capacity
  slots : Slots bl max d.issued s.mem.blocks s.pc
  history : History d.issued d.capacity s

theorem Pool.dispensing_new (T bl max : Nat) :
    (Pool.new T bl max).Dispensing bl max (Dispenser.fresh (max / bl)) where
  no_fault := rfl
  block_length := rfl
  max_size := rfl
  size := by simp [Pool.new, PinnedFixMemory.new, Dispenser.fresh]
  capacity := rfl
  offset := by simp [Pool.new, PinnedFixMemory.new, Dispenser.fresh, count, AllocPc.refusing]
  full := by simp [Pool.new, count, AllocPc.refusing]
  slots :=
    { sound := fun _ => trivial
      held := by simp [Pool.new, AllocPc.slot]
      unique := by simp [Pool.new, AllocPc.slot]
      covered := by simp [Dispenser.fresh]
      filled := by simp [Pool.new, PinnedFixMemory.new, List.getElem?_replicate] }
  history :=
    { published_iff := by simp [Pool.new, PinnedFixMemory.new, List.getElem?_replicate]
      nodup := List.nodup_nil
      trues := rfl
      falses := by simp [Pool.new]
      calls := by simp [Pool.new, count, AllocPc.busy] }

/-- Replacing a thread's position by one that claims the same slot keeps the
slots as they are accounted for. -/
theorem Slots.update_same {issued : Nat} {blocks : List (Option PinnedBlock)} {pc : Fin T → AllocPc}
    (h : Slots bl max issued blocks pc) {t : Fin T} {v : AllocPc} (hsound : v.Sound bl)
    (hslot : v.slot bl max = (pc t).slot bl max) :
    Slots bl max issued blocks (Function.update pc t v) := by
  have hall : ∀ u, (Function.update pc t v u).slot bl max = (pc u).slot bl max := by
    intro u
    by_cases hu : u = t
    · subst u
      rw [Function.update_self, hslot]
    · rw [Function.update_of_ne hu]
  refine ⟨?_, ?_, ?_, ?_, h.filled⟩
  · exact (Function.forall_update_iff pc fun _ pc => pc.Sound bl).mpr ⟨hsound, fun u _ => h.sound u⟩
  · intro u i hi
    exact h.held u i (by rwa [← hall u])
  · intro u w i hu hw
    exact h.unique u w i (by rwa [← hall u]) (by rwa [← hall w])
  · intro i hi
    simpa only [hall] using h.covered i hi

/-- A thread without a claim takes the next place. -/
theorem Slots.claim {issued : Nat} {blocks : List (Option PinnedBlock)} {pc : Fin T → AllocPc}
    (h : Slots bl max issued blocks pc) {t : Fin T} {v : AllocPc} (hsound : v.Sound bl)
    (hnone : (pc t).slot bl max = none) (hslot : v.slot bl max = some issued)
    (hroom : issued < blocks.length) :
    Slots bl max (issued + 1) blocks (Function.update pc t v) := by
  have hother : ∀ u i, u ≠ t → (Function.update pc t v u).slot bl max = some i →
      (pc u).slot bl max = some i ∧ i < issued := by
    intro u i hu hi
    rw [Function.update_of_ne hu] at hi
    exact ⟨hi, (h.held u i hi).1⟩
  have hself : ∀ i, (Function.update pc t v t).slot bl max = some i → i = issued := by
    intro i hi
    rw [Function.update_self, hslot] at hi
    exact (Option.some.inj hi).symm
  refine ⟨?_, ?_, ?_, ?_, ?_⟩
  · exact (Function.forall_update_iff pc fun _ pc => pc.Sound bl).mpr ⟨hsound, fun u _ => h.sound u⟩
  · intro u i hi
    by_cases hu : u = t
    · subst u
      obtain rfl := hself i hi
      refine ⟨Nat.lt_succ_self _, ?_⟩
      rw [List.getElem?_eq_getElem hroom]
      cases hb : blocks[i] with
      | none => rfl
      | some b =>
        have hfilled := h.filled i b (by rw [List.getElem?_eq_getElem hroom, hb])
        omega
    · obtain ⟨hi, hlt⟩ := hother u i hu hi
      exact ⟨by omega, (h.held u i hi).2⟩
  · intro u w i hu hw
    by_cases hut : u = t
    · by_cases hwt : w = t
      · rw [hut, hwt]
      · subst hut
        have hi := hself i hu
        have hlt := (hother w i hwt hw).2
        omega
    · have hlt := (hother u i hut hu).2
      by_cases hwt : w = t
      · subst hwt
        have hi := hself i hw
        omega
      · exact h.unique u w i (hother u i hut hu).1 (hother w i hwt hw).1
  · intro i hi
    by_cases hlast : i = issued
    · exact .inr ⟨t, by rw [Function.update_self, hslot, hlast]⟩
    · rcases h.covered i (by omega) with hb | ⟨u, hu⟩
      · exact .inl hb
      · have hut : u ≠ t := by
          rintro rfl
          rw [hnone] at hu
          cases hu
        exact .inr ⟨u, by rwa [Function.update_of_ne hut]⟩
  · intro i b hb
    have hfilled := h.filled i b hb
    exact ⟨by omega, hfilled.2⟩

/-- A thread fills the slot it claimed. -/
theorem Slots.fill {issued : Nat} {blocks : List (Option PinnedBlock)} {pc : Fin T → AllocPc}
    (h : Slots bl max issued blocks pc) {t : Fin T} {idx : Nat} {block : PinnedBlock} {v : AllocPc}
    (hpc : pc t = .registered idx block) (hsound : v.Sound bl) (hnone : v.slot bl max = none) :
    Slots bl max issued (blocks.set idx (some block)) (Function.update pc t v) := by
  have hclaim : (pc t).slot bl max = some idx := by rw [hpc]; rfl
  obtain ⟨hidx, hempty⟩ := h.held t idx hclaim
  have hlen : idx < blocks.length := (List.getElem?_eq_some_iff.mp hempty).1
  have hother : ∀ u i, (Function.update pc t v u).slot bl max = some i → u ≠ t ∧ (pc u).slot bl max = some i := by
    intro u i hi
    by_cases hu : u = t
    · subst u
      rw [Function.update_self, hnone] at hi
      cases hi
    · rw [Function.update_of_ne hu] at hi
      exact ⟨hu, hi⟩
  refine ⟨?_, ?_, ?_, ?_, ?_⟩
  · exact (Function.forall_update_iff pc fun _ pc => pc.Sound bl).mpr ⟨hsound, fun u _ => h.sound u⟩
  · intro u i hi
    obtain ⟨hu, hi⟩ := hother u i hi
    have hne : idx ≠ i := by
      rintro rfl
      exact hu (h.unique u t idx hi hclaim)
    rw [List.getElem?_set_ne hne]
    exact h.held u i hi
  · intro u w i hu hw
    exact h.unique u w i (hother u i hu).2 (hother w i hw).2
  · intro i hi
    by_cases hne : idx = i
    · subst i
      exact .inl ⟨block, by rw [List.getElem?_set_self hlen]⟩
    · rw [List.getElem?_set_ne hne]
      rcases h.covered i hi with hb | ⟨u, hu⟩
      · exact .inl hb
      · have hut : u ≠ t := by
          rintro rfl
          rw [hclaim] at hu
          exact hne (Option.some.inj hu)
        exact .inr ⟨u, by rwa [Function.update_of_ne hut]⟩
  · intro i b hb
    by_cases hne : idx = i
    · subst i
      rw [List.getElem?_set_self hlen] at hb
      cases hb
      have hwell : block.virtual_offset = idx * bl ∧ block.mem_length = bl := by
        simpa [AllocPc.Sound, hpc] using h.sound t
      exact ⟨hidx, hwell⟩
    · rw [List.getElem?_set_ne hne] at hb
      exact h.filled i b hb

end tc_rdma.mem_mag
