import TcRdma.Machine.Board
import TcRdma.MemMag.Stability

open tc_rdma.machine

namespace tc_rdma.mem_mag

/-- The block that has been published for this offset. -/
def PinnedFixMemory.posted (self : PinnedFixMemory) (voff : Nat) : Option PinnedBlock :=
  if voff % self.block_length = 0 then (self.blocks[voff / self.block_length]?).join else none

variable {bl max T R : Nat}

/-- A step of the pool publishes at most one block, in an empty slot. -/
theorem Pool.blocks_of_step {s next : Pool T} {label : Fin T × AllocAct} (hstep : s.step label = some next) :
    next.mem.block_length = s.mem.block_length ∧ (next.mem.blocks = s.mem.blocks ∨
      ∃ idx block, s.mem.blocks[idx]? = some none ∧ next.mem.blocks = s.mem.blocks.set idx (some block)) := by
  obtain ⟨-, ⟨fault, hmove, rfl⟩ | ⟨mem, pc, event, hmove, rfl⟩⟩ := Pool.step_cases hstep
  · exact ⟨rfl, .inl rfl⟩
  · generalize s.pc label.1 = old at hmove
    generalize label.2 = act at hmove
    cases hmove with
    | call _ _ => exact ⟨rfl, .inl rfl⟩
    | fetch_add _ _ => exact ⟨rfl, .inl rfl⟩
    | fits _ _ _ _ => exact ⟨rfl, .inl rfl⟩
    | refuse _ _ _ _ => exact ⟨rfl, .inl rfl⟩
    | reg_alloc _ _ _ _ _ _ _ _ => exact ⟨rfl, .inl rfl⟩
    | fetch_sub => exact ⟨rfl, .inl rfl⟩
    | publish idx block hslot => exact ⟨rfl, .inr ⟨idx, block, hslot, rfl⟩⟩

/-- Publishing a block posts it for its offset. -/
theorem PinnedFixMemory.posted_set {mem next : PinnedFixMemory} (hlength : next.block_length = mem.block_length)
    (hpos : 0 < mem.block_length) {idx : Nat} {block : PinnedBlock} (hslot : mem.blocks[idx]? = some none)
    (hset : next.blocks = mem.blocks.set idx (some block)) :
    mem.posted (idx * mem.block_length) = none ∧
      next.posted = Function.update mem.posted (idx * mem.block_length) (some block) := by
  obtain ⟨hidx, -⟩ := List.getElem?_eq_some_iff.mp hslot
  have hdiv : idx * mem.block_length / mem.block_length = idx := Nat.mul_div_cancel idx hpos
  constructor
  · simp [PinnedFixMemory.posted, hdiv, hslot]
  · funext voff
    unfold PinnedFixMemory.posted
    rw [hlength, hset]
    by_cases hvoff : voff = idx * mem.block_length
    · subst hvoff
      simp [hdiv, hidx]
    · rw [Function.update_of_ne hvoff]
      split
      · rename_i hmod
        have hne : idx ≠ voff / mem.block_length := by
          rintro rfl
          exact hvoff (Nat.div_mul_cancel (Nat.dvd_of_mod_eq_zero hmod)).symm
        rw [List.getElem?_set_ne hne]
      · rfl

variable {s next : Magr T R}

/-- The board of the blocks that have been published, with the lookups as
questions: each has been answered with the region of the block. -/
structure Magr.Shows (s : Magr T R) (b : Board Nat PinnedBlock) : Prop where
  posted : b.posted = s.pool.mem.posted
  found : s.found = b.answers.map fun answer => (answer.1, answer.2.bind PinnedBlock.mr)

theorem Magr.shows_sized (T R bl max : Nat) : (Magr.sized T R bl max).Shows (Board.blank Nat PinnedBlock) where
  posted := by
    funext voff
    simp only [Board.blank, PinnedFixMemory.posted, Magr.sized, Pool.new, PinnedFixMemory.new, List.getElem?_replicate]
    split
    · split <;> rfl
    · rfl
  found := rfl

/-- A lookup finds the region of the block that is published at the moment of
the read that decides it. -/
theorem Magr.Stable.answer (hbl : 0 < bl) (hsound : s.Sound bl max) (h : s.Stable bl) {r : Fin R} {act : LookupAct}
    {pc : LookupPc} {voff : Nat} {result : Option IbvMr} (hfixed : MagrAct.Fixed (T := T) (.lookup r act))
    (hlookup : LookupMove s.pool.mem (s.reader r) act (.ok (pc, some (voff, result)))) :
    result = (s.pool.mem.posted voff).bind PinnedBlock.mr := by
  obtain ⟨d, hd⟩ := hsound.pool
  have hlength := hd.block_length
  generalize hpc : s.reader r = old at hlookup
  cases hlookup with
  | unfixed _ len => cases hfixed
  | beyond _ len hle =>
    -- a slot that is filled lies below the counter
    obtain ⟨rfl, q, rfl⟩ := hsound.readers r voff len hpc
    have hslot : (s.pool.mem.blocks[q]?).join = none := by
      cases hfilled : s.pool.mem.blocks[q]? with
      | none => rfl
      | some slot =>
        cases slot with
        | none => rfl
        | some block =>
          obtain ⟨hissued, -⟩ := hd.slots.filled q block hfilled
          rw [hd.offset, Nat.mul_le_mul_left_iff hbl] at hle
          omega
    simp [PinnedFixMemory.posted, hlength, Nat.mul_div_cancel_left q hbl, hslot]
  | empty _ i hslot =>
    obtain ⟨hdvd, rfl⟩ := h.readers r voff i (.inl hpc)
    simp [PinnedFixMemory.posted, hlength, hslot]
  | read _ i block hslot =>
    obtain ⟨hdvd, rfl⟩ := h.readers r voff i (.inr hpc)
    simp [PinnedFixMemory.posted, hlength, Nat.mod_eq_zero_of_dvd hdvd, hslot]

/-- Each step of the manager is at most one step of the board. -/
theorem Magr.Shows.step (hbl : 0 < bl) (hsound : s.Sound bl max) (hstable : s.Stable bl) {b : Board Nat PinnedBlock}
    (h : s.Shows b) {label : MagrAct T R} (hfixed : label.Fixed) (hstep : s.step label = some next) :
    ∃ c, Board.Steps b c ∧ next.Shows c := by
  obtain ⟨-, hmove⟩ := Magr.step_move hstep
  cases hmove with
  | pool label inner pool hpool _ =>
    obtain ⟨hlength, hblocks | ⟨idx, block, hslot, hset⟩⟩ := Pool.blocks_of_step hpool
    · refine ⟨b, .refl, ?_, h.found⟩
      rw [h.posted]
      funext voff
      simp [PinnedFixMemory.posted, hlength, hblocks]
    · have hpos : 0 < s.pool.mem.block_length := by rw [hsound.block_length]; exact hbl
      obtain ⟨hfree, hposted⟩ := PinnedFixMemory.posted_set hlength hpos hslot hset
      rw [← h.posted] at hfree
      refine ⟨_, .single (.post b _ block hfree), ?_, h.found⟩
      rw [hposted, ← h.posted]
  | len_fault t pd flags len hlen => exact ⟨b, .refl, h.posted, h.found⟩
  | lookup_fault r act fault hlookup => exact ⟨b, .refl, h.posted, h.found⟩
  | lookup r act pc found hlookup =>
    cases found with
    | none => exact ⟨b, .refl, h.posted, by simpa using h.found⟩
    | some found =>
      obtain ⟨voff, result⟩ := found
      refine ⟨_, .single (.ask b voff), h.posted, ?_⟩
      have hanswer := hstable.answer hbl hsound hfixed hlookup
      simp [h.found, h.posted, hanswer]

/-- What holds of the manager in every run, with its board. -/
structure Magr.Linear (bl max : Nat) (s : Magr T R) (b : Board Nat PinnedBlock) : Prop where
  sound : s.Sound bl max
  stable : s.Stable bl
  shows : s.Shows b

theorem Magr.Linear.run (hbl : 0 < bl) (hfit : max + T * bl < 2 ^ 64) {labels : List (MagrAct T R)}
    (hfixed : ∀ label ∈ labels, label.Fixed) {b : Board Nat PinnedBlock} (h : s.Linear bl max b)
    (hrun : run Magr.step s labels = some next) : ∃ c, Board.Steps b c ∧ next.Linear bl max c := by
  refine run_simulates_of ?_ hfixed h hrun
  rintro s label next b hfixed ⟨hsound, hstable, hshows⟩ hstep
  obtain ⟨c, hsteps, hnext⟩ := hshows.step hbl hsound hstable hfixed hstep
  exact ⟨c, hsteps, hsound.step hbl hfit hstep, hstable.step hbl hfit hsound hfixed hstep, hnext⟩

/-- What the thread is about to return, if it has looked up this offset, is the
region of the block published for it. -/
structure Magr.Informed (bl max : Nat) (r : Fin R) (voff : Nat) (block : PinnedBlock) (s : Magr T R) : Prop where
  linear : ∃ b, s.Linear bl max b
  posted : s.pool.mem.posted voff = some block
  result : ∀ result, s.reader r = .returning voff result → result = block.mr

theorem Magr.Informed.step (hbl : 0 < bl) (hfit : max + T * bl < 2 ^ 64) {r : Fin R} {voff : Nat} {block : PinnedBlock}
    {label : MagrAct T R} (hfixed : label.Fixed) (h : s.Informed bl max r voff block)
      (hstep : s.step label = some next) :
    next.Informed bl max r voff block := by
  obtain ⟨b, hb⟩ := h.linear
  obtain ⟨c, hsteps, hc⟩ := hb.run hbl hfit (by simpa using hfixed) (run_singleton_of_step hstep)
  have hposted : c.posted voff = some block := hsteps.posted (by rw [hb.shows.posted]; exact h.posted)
  refine ⟨⟨c, hc⟩, by rw [← hc.shows.posted]; exact hposted, ?_⟩
  intro result hreturning
  obtain ⟨-, hmove⟩ := Magr.step_move hstep
  cases hmove with
  | pool label inner pool hpool _ => exact h.result result hreturning
  | len_fault t pd flags len hlen => exact h.result result hreturning
  | lookup_fault u act fault hlookup => exact h.result result hreturning
  | lookup u act pc found hlookup =>
    dsimp only at hreturning
    by_cases hu : r = u
    · subst u
      rw [Function.update_self] at hreturning
      subst pc
      obtain rfl := hlookup.returning
      rw [hb.stable.answer hbl hb.sound hfixed hlookup, h.posted]
      rfl
    · rw [Function.update_of_ne hu] at hreturning
      exact h.result result hreturning

/-- Any number of threads that allocate and look up, in any order, are as good
as a board on which each block is posted once, atomically, and each lookup is
answered atomically with the region of the block posted for its offset, or
with null. The moment of a lookup is the read that decides it, which lies
between its call and its return, and what it returns is what it found then.
Once a block is published, every lookup of its offset that has not decided yet,
even one that has begun before, finds and returns the region of that block. -/
theorem Magr.get_pinned_mr_linearizable (hbl : 0 < bl) (hfit : max + T * bl < 2 ^ 64) {labels more : List (MagrAct T R)}
    (hfixed : ∀ label ∈ labels ++ more, label.Fixed) {last : Magr T R}
    (hrun : run Magr.step (Magr.sized T R bl max) labels = some s) (hmore : run Magr.step s more = some last) :
    (∃ b c, Board.Steps (Board.blank Nat PinnedBlock) b ∧ Board.Steps b c ∧ s.Shows b ∧ last.Shows c) ∧
    (∀ r voff result, last.reader r = .returning voff result → (voff, result) ∈ last.found) ∧
    ∀ voff block, s.pool.mem.posted voff = some block →
      (∃ later, last.found = s.found ++ later ∧ ∀ found ∈ later, found.1 = voff → found.2 = block.mr) ∧
      ∀ r, (∀ result, s.reader r ≠ .returning voff result) →
        ∀ result, last.reader r = .returning voff result → result = block.mr := by
  have hstart : (Magr.sized T R bl max).Linear bl max (Board.blank Nat PinnedBlock) :=
    ⟨Magr.sound_sized T R bl max, Magr.stable_sized T R bl max, Magr.shows_sized T R bl max⟩
  obtain ⟨b, hsteps, hb⟩ := hstart.run hbl hfit (fun label hmem => hfixed label (by simp [hmem])) hrun
  obtain ⟨c, hlater, hc⟩ := hb.run hbl hfit (fun label hmem => hfixed label (by simp [hmem])) hmore
  refine ⟨⟨b, c, hsteps, hlater, hb.shows, hc.shows⟩, hc.stable.returns, ?_⟩
  intro voff block hposted
  obtain ⟨answers, hanswers, hall⟩ := hlater.answers (k := voff) (by rw [hb.shows.posted]; exact hposted)
  constructor
  · refine ⟨answers.map fun answer => (answer.1, answer.2.bind PinnedBlock.mr), ?_, ?_⟩
    · rw [hc.shows.found, hb.shows.found, hanswers, List.map_append]
    · intro found hmem hvoff
      obtain ⟨answer, hanswer, rfl⟩ := List.mem_map.mp hmem
      rw [hall answer hanswer hvoff]
      rfl
  · intro r hundecided
    have hinformed : s.Informed bl max r voff block :=
      ⟨⟨b, hb⟩, hposted, fun result hreturning => absurd hreturning (hundecided result)⟩
    have hlast := run_invariant_of (fun a l z hl ha hstep => ha.step hbl hfit hl hstep)
      (fun label hmem => hfixed label (by simp [hmem])) hinformed hmore
    exact hlast.result

/-- One lookup finds the counter at zero and does not return yet. The counter
another one loads is ahead of the slots, which are filled before it looks
there. -/
def earlyLookup (t : Fin T) (r u : Fin R) : List (MagrAct T R) :=
  [.lookup r (.call 0 64 true), .lookup u (.call 0 64 true), .lookup u .load_offset,
    .allocate_pinned_memory t 1 1 64, .allocate t .fetch_add, .lookup r .load_offset,
    .allocate t .test_capacity, .allocate t (.reg_alloc (some 4096) (some 7)), .allocate t .publish]

/-- The lookup that has decided before the publication still returns null after
it; the one that has only begun before finds the block. -/
theorem Magr.get_pinned_mr_linearizable_early :
    ∃ s last, run Magr.step (Magr.sized 1 2 64 64) (earlyLookup 0 0 1) = some s ∧
      run Magr.step s [.lookup 0 .test_slot, .lookup 0 .read_mr] = some last ∧
      s.found = [(0, none)] ∧ last.reader 1 = .returning 0 none ∧
      last.reader 0 = .returning 0 (some ⟨7, 1, 4096, 64, 1⟩) ∧
      ∃ later, last.found = (0, none) :: later ∧ later.length = 1 ∧
        ∀ found ∈ later, found.1 = 0 → found.2 = some ⟨7, 1, 4096, 64, 1⟩ := by
  have hdecided : ((run Magr.step (Magr.sized 1 2 64 64) (earlyLookup 0 0 1)).any fun s =>
      decide ((s.pool.mem.posted 0).map PinnedBlock.mr = some (some ⟨7, 1, 4096, 64, 1⟩) ∧ s.found = [(0, none)]) &&
        (run Magr.step s [.lookup 0 .test_slot, .lookup 0 .read_mr]).any fun last =>
          decide (last.found.length = 2 ∧ last.reader 1 = .returning 0 none ∧
            last.reader 0 = .returning 0 (some ⟨7, 1, 4096, 64, 1⟩))) = true := by decide
  obtain ⟨s, hrun, hs⟩ := (Option.any_eq_true _ _).mp hdecided
  rw [Bool.and_eq_true] at hs
  obtain ⟨hposted, hnone⟩ := of_decide_eq_true hs.1
  obtain ⟨last, hmore, hlast⟩ := (Option.any_eq_true _ _).mp hs.2
  obtain ⟨hlength, hlate, hearly⟩ := of_decide_eq_true hlast
  obtain ⟨block, hblock, hmr⟩ := Option.map_eq_some_iff.mp hposted
  have hfixed : ∀ label ∈ earlyLookup (T := 1) (R := 2) 0 0 1 ++ [.lookup 0 .test_slot, .lookup 0 .read_mr],
      label.Fixed := by simp [earlyLookup, MagrAct.Fixed]
  obtain ⟨-, -, hvisible⟩ := Magr.get_pinned_mr_linearizable (by decide) (by decide) hfixed hrun hmore
  obtain ⟨⟨later, hlater, hall⟩, -⟩ := hvisible 0 block hblock
  rw [hnone] at hlater
  refine ⟨s, last, hrun, hmore, hnone, hlate, hearly, later, hlater, ?_, fun found hmem hvoff => ?_⟩
  · rw [hlater] at hlength
    simpa using hlength
  · rw [hall found hmem hvoff, hmr]

end tc_rdma.mem_mag
