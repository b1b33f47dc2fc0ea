import Mathlib.Data.Set.Card
import TcRdma.MemMag.Alone
import TcRdma.MemMag.Magr

open tc_rdma.machine

namespace tc_rdma.mem_mag

/-- `allocate_pinned_memory` with no other call going on. -/
def PinnedFixMemory.allocate_pinned_memory_alone (self : PinnedFixMemory) (call : AllocCall) (len : Nat)
    (fixed : Bool) : Except Fault (Bool × PinnedFixMemory) :=
  if fixed then
    if len ≠ self.block_length then .error .len_not_block_length
    else
      match self.allocate_next_block_alone call with
      | .error fault => .error fault
      -- the result of `allocate_next_block` is not used
      | .ok (_, next) => .ok (true, next)
  else .ok (true, self)

/-- `get_pinned_mr` with no other call going on. -/
def PinnedFixMemory.get_pinned_mr_alone (self : PinnedFixMemory) (voff len : Nat) (fixed : Bool) :
    Except Fault (Option IbvMr) :=
  if fixed then
    if len ≠ self.block_length then .error .len_not_block_length
    else if voff % len ≠ 0 then .error .voff_not_multiple
    else if voff < self.next_offset then
      match self.blocks[voff / len]? with
      | none => .error (.slot_out_of_range (voff / len))
      | some none => .ok none
      | some (some block) => .ok block.mr
    else .ok none
  else .ok none

/-- The calls of `allocate_pinned_memory` one after the other, for blocks of
the fixed length, with what they return. -/
def PinnedFixMemory.allocate_all (self : PinnedFixMemory) :
    List AllocCall → Except Fault (List Bool × PinnedFixMemory)
  | [] => .ok ([], self)
  | call :: calls => do
    let (ret, next) ← self.allocate_pinned_memory_alone call FIX_BLOCK_LENGTH true
    let (rets, last) ← next.allocate_all calls
    return (ret :: rets, last)

/-- The offsets at which `get_pinned_mr` finds a region. -/
def PinnedFixMemory.retrievable (self : PinnedFixMemory) : Set Nat :=
  {voff | voff < 2 ^ 64 ∧ FIX_BLOCK_LENGTH ∣ voff ∧
    ∃ mr, self.get_pinned_mr_alone voff FIX_BLOCK_LENGTH true = .ok (some mr)}

variable {self next : PinnedFixMemory} {call : AllocCall} {calls : List AllocCall} {k max : Nat}

/-- Where the calls of a lookup lead from one another. -/
def PinnedFixMemory.lookup_step (self : PinnedFixMemory) (s : LookupPc × List Found) (act : LookupAct) :
    Option (LookupPc × List Found) :=
  match self.get_pinned_mr s.1 act with
  | some (.ok (pc, found)) => some (pc, s.2 ++ found.toList)
  | _ => none

/-- A lookup that is alone is some of the atomic steps of the thread that makes it. -/
theorem PinnedFixMemory.run_lookup_alone {voff len : Nat} {fixed : Bool} {found : Option IbvMr}
    (halone : self.get_pinned_mr_alone voff len fixed = .ok found) :
    ∃ acts, run self.lookup_step (.idle, []) (.call voff len fixed :: acts) = some (.idle, [(voff, found)]) := by
  unfold PinnedFixMemory.get_pinned_mr_alone at halone
  cases fixed with
  | false =>
    cases halone
    exact ⟨[.ret], rfl⟩
  | true =>
    rw [if_pos rfl] at halone
    split at halone
    · cases halone
    · rename_i hlen
      have hlen := not_not.mp hlen
      split at halone
      · cases halone
      · rename_i hmod
        have hmod := not_not.mp hmod
        have hcall : self.lookup_step (.idle, []) (.call voff len true) = some (.entered voff len, []) := by
          simp [PinnedFixMemory.lookup_step, PinnedFixMemory.get_pinned_mr, hlen, hlen ▸ hmod]
        simp only [run, hcall, Option.bind_some]
        split at halone
        · rename_i hless
          split at halone
          · cases halone
          · rename_i hslot
            cases halone
            refine ⟨[.load_offset, .test_slot, .ret], ?_⟩
            simp [run, PinnedFixMemory.lookup_step, PinnedFixMemory.get_pinned_mr, hless, hslot]
          · rename_i block hslot
            cases halone
            refine ⟨[.load_offset, .test_slot, .read_mr, .ret], ?_⟩
            simp [run, PinnedFixMemory.lookup_step, PinnedFixMemory.get_pinned_mr, hless, hslot]
        · rename_i hbeyond
          cases halone
          refine ⟨[.load_offset, .ret], ?_⟩
          simp [run, PinnedFixMemory.lookup_step, PinnedFixMemory.get_pinned_mr, hbeyond]

/-- The block can be used by a peer. -/
def PinnedBlock.Registered (b : PinnedBlock) : Prop := b.mr ≠ none

/-- With every block registered, exactly the offsets of the filled slots are
found. -/
theorem PinnedFixMemory.FilledTo.lookup (h : self.FilledTo PinnedBlock.Registered FIX_BLOCK_LENGTH max k) (i : Nat) :
    (∃ mr, self.get_pinned_mr_alone (FIX_BLOCK_LENGTH * i) FIX_BLOCK_LENGTH true = .ok (some mr)) ↔ i < k := by
  have hpos : 0 < FIX_BLOCK_LENGTH := by decide
  have hmod : FIX_BLOCK_LENGTH * i % FIX_BLOCK_LENGTH = 0 := Nat.mul_mod_right _ _
  have hless : FIX_BLOCK_LENGTH * i < self.next_offset ↔ i < k := by
    rw [h.next_offset]
    exact Nat.mul_lt_mul_left hpos
  simp only [PinnedFixMemory.get_pinned_mr_alone, h.block_length, hmod, hless, Nat.mul_div_cancel_left i hpos,
    ne_eq, not_true_eq_false, if_false, if_true]
  by_cases hi : i < k
  · obtain ⟨b, hslot, hregistered⟩ := h.filled i hi
    rw [if_pos hi, hslot]
    obtain ⟨mr, hmr⟩ := Option.ne_none_iff_exists'.mp hregistered
    exact ⟨fun _ => hi, fun _ => ⟨mr, congrArg Except.ok hmr⟩⟩
  · rw [if_neg hi]
    simp [hi]

theorem PinnedFixMemory.FilledTo.ncard_retrievable
    (h : self.FilledTo PinnedBlock.Registered FIX_BLOCK_LENGTH max k) (hmax : max < 2 ^ 64) :
    self.retrievable.ncard = k := by
  have hpos : 0 < FIX_BLOCK_LENGTH := by decide
  have hset : self.retrievable = (FIX_BLOCK_LENGTH * ·) '' Set.Iio k := by
    ext voff
    constructor
    · rintro ⟨-, ⟨i, rfl⟩, hfound⟩
      exact ⟨i, (h.lookup i).mp hfound, rfl⟩
    · rintro ⟨i, hi, rfl⟩
      refine ⟨?_, Nat.dvd_mul_right _ _, (h.lookup i).mpr hi⟩
      have hle : (i + 1) * FIX_BLOCK_LENGTH ≤ max :=
        (Nat.le_div_iff_mul_le hpos).mp (Nat.le_trans hi h.le)
      show FIX_BLOCK_LENGTH * i < 2 ^ 64
      rw [Nat.add_mul, Nat.mul_comm] at hle
      omega
  have hinjective : Function.Injective (FIX_BLOCK_LENGTH * ·) := fun i j heq => Nat.eq_of_mul_eq_mul_left hpos heq
  rw [hset, Set.ncard_image_of_injective _ hinjective, ← Finset.coe_range, Set.ncard_coe_finset,
    Finset.card_range]

/-- The calls find memory for their blocks, and it can be registered. -/
def Given (calls : List AllocCall) : Prop := ∀ call ∈ calls, call.mem ≠ none ∧ call.reg ≠ none

/-- Whatever `allocate_next_block` returns, the caller is told true. -/
theorem PinnedFixMemory.allocate_all_cons {ret : Bool} {rets : List Bool} {last : PinnedFixMemory}
    (hlength : self.block_length = FIX_BLOCK_LENGTH)
    (halone : self.allocate_next_block_alone call = .ok (ret, next))
    (hall : next.allocate_all calls = .ok (rets, last)) :
    self.allocate_all (call :: calls) = .ok (true :: rets, last) := by
  have hcall : self.allocate_pinned_memory_alone call FIX_BLOCK_LENGTH true = .ok (true, next) := by
    simp [PinnedFixMemory.allocate_pinned_memory_alone, hlength, halone]
  rw [PinnedFixMemory.allocate_all, hcall]
  change (next.allocate_all calls >>= _) = _
  rw [hall]
  rfl

/-- Every call returns true, and fills a slot as long as there is one. -/
theorem PinnedFixMemory.FilledTo.allocate_all
    (h : self.FilledTo PinnedBlock.Registered FIX_BLOCK_LENGTH max k) (hmax : max + FIX_BLOCK_LENGTH < 2 ^ 64)
    (hgiven : Given calls) :
    ∃ last, self.allocate_all calls = .ok (List.replicate calls.length true, last) ∧
      last.FilledTo PinnedBlock.Registered FIX_BLOCK_LENGTH max
        (min (k + calls.length) (max / FIX_BLOCK_LENGTH)) := by
  have hpos : 0 < FIX_BLOCK_LENGTH := by decide
  induction calls generalizing self k with
  | nil =>
    refine ⟨self, rfl, ?_⟩
    rw [List.length_nil, Nat.add_zero, Nat.min_eq_left h.le]
    exact h
  | cons call calls ih =>
    have hcall := hgiven call (by simp)
    have hcalls : Given calls := fun other hother => hgiven other (by simp [hother])
    have hle : k * FIX_BLOCK_LENGTH ≤ max := (Nat.le_div_iff_mul_le hpos).mp h.le
    rw [Nat.mul_comm] at hle
    by_cases hroom : FIX_BLOCK_LENGTH * k + FIX_BLOCK_LENGTH ≤ max
    · obtain ⟨hlt, b, next, halone, rfl, hcomplete⟩ := h.alone_of_room hpos (by omega) hroom call
      obtain ⟨last, hall, hfilled⟩ := ih (h.publish hlt (hcomplete.mpr hcall).2) hcalls
      refine ⟨last, PinnedFixMemory.allocate_all_cons h.block_length halone hall, ?_⟩
      rw [List.length_cons, Nat.add_comm calls.length, ← Nat.add_assoc]
      exact hfilled
    · have hfull : max / FIX_BLOCK_LENGTH = k := by
        apply Nat.le_antisymm _ h.le
        rw [← Nat.lt_succ_iff, Nat.div_lt_iff_lt_mul hpos, Nat.succ_mul, Nat.mul_comm]
        omega
      have halone := h.alone_of_full (by omega) (by omega) call
      obtain ⟨last, hall, hfilled⟩ := ih h hcalls
      refine ⟨last, PinnedFixMemory.allocate_all_cons h.block_length halone hall, ?_⟩
      rw [hfull, Nat.min_eq_right (by omega)] at hfilled ⊢
      exact hfilled

/-- As many calls returned true as there are offsets with a region. -/
def Counted (calls : List AllocCall) : Prop :=
  ∃ rets s, (PinnedFixMemory.new FIX_BLOCK_LENGTH MAX_MEMORY_LENGTH).allocate_all calls = .ok (rets, s) ∧
    rets.count true = s.retrievable.ncard

/-- The calls' results count the regions up to the capacity of the memory. -/
theorem exists_allocate_all (hgiven : Given calls) :
    ∃ s, (PinnedFixMemory.new FIX_BLOCK_LENGTH MAX_MEMORY_LENGTH).allocate_all calls =
        .ok (List.replicate calls.length true, s) ∧
      s.retrievable.ncard = min calls.length (MAX_MEMORY_LENGTH / FIX_BLOCK_LENGTH) := by
  have hnew := PinnedFixMemory.new_filledTo PinnedBlock.Registered FIX_BLOCK_LENGTH MAX_MEMORY_LENGTH
  obtain ⟨s, hall, hfilled⟩ := hnew.allocate_all (by decide) hgiven
  rw [Nat.zero_add] at hfilled
  exact ⟨s, hall, hfilled.ncard_retrievable (by decide)⟩

/-- The results are right exactly in the runs that do not exceed the capacity. -/
theorem counted_iff_le (hgiven : Given calls) :
    Counted calls ↔ calls.length ≤ MAX_MEMORY_LENGTH / FIX_BLOCK_LENGTH := by
  obtain ⟨s, hall, hcard⟩ := exists_allocate_all hgiven
  constructor
  · rintro ⟨rets, s', hall', hcount⟩
    rw [hall] at hall'
    cases hall'
    rw [List.count_replicate_self, hcard] at hcount
    omega
  · intro hle
    refine ⟨_, s, hall, ?_⟩
    rw [List.count_replicate_self, hcard, Nat.min_eq_left hle]

/-- One more call than there are blocks returns true as well. -/
theorem not_counted_of_exhausted : ¬ ∀ calls, Given calls → Counted calls := by
  intro hall
  have hgiven : Given (List.replicate 16385 ⟨1, 7, some 4096, some 5⟩) := by
    intro call hcall
    rw [List.eq_of_mem_replicate hcall]
    exact ⟨by simp, by simp⟩
  obtain ⟨rets, s, hrets, hcount⟩ := hall _ hgiven
  obtain ⟨s', hrets', hcard⟩ := exists_allocate_all hgiven
  rw [hrets'] at hrets
  obtain ⟨rfl, rfl⟩ := Prod.mk.inj (Except.ok.inj hrets)
  rw [hcard, List.count_replicate_self, List.length_replicate] at hcount
  exact absurd hcount (by decide)

theorem counted_iff_le_two :
    Counted [⟨1, 7, some 4096, some 5⟩, ⟨1, 7, some 8192, some 6⟩] ↔
      [(⟨1, 7, some 4096, some 5⟩ : AllocCall), ⟨1, 7, some 8192, some 6⟩].length ≤
        MAX_MEMORY_LENGTH / FIX_BLOCK_LENGTH :=
  counted_iff_le (by simp [Given])

end tc_rdma.mem_mag
