import TcRdma.LinkBuf.Tracking

open tc_rdma.machine

namespace tc_rdma.link_buf

variable {capacity : Capacity} {links : Finset Interval} {s : Tracking capacity}

/-- The position up to which the tracking thread has followed links. It runs
ahead of the published tail during a call. -/
def AdvancePc.position (tail : Nat) : AdvancePc → Nat
  | .idle => tail
  | .started => tail
  | .reading position => position
  | .claiming position _ => position
  | .comparing position => position
  | .publishing position => position

def Tracking.position (s : Tracking capacity) : Nat := s.advancer.position s.buf.m_tail

def Tracking.Reported (s : Tracking capacity) (l : Interval) : Prop := s.reporter l = .reported

/-- A link that has been stored and not been followed yet. -/
def Tracking.Pending (s : Tracking capacity) (l : Interval) : Prop :=
  s.Reported l ∧ s.position ≤ l.lo

/-- Every link between the followed position and the end of the window that
begins at the published tail has a slot of its own. The slots hold exactly
the pending links, so the slot of a link still to be stored is empty. -/
structure Window (links : Finset Interval) (s : Tracking capacity) : Prop where
  no_fault : s.fault = none
  tail_le : s.buf.m_tail ≤ s.position
  position_lt : s.position < position_max
  followed : ∀ l ∈ links, l.lo < s.position → s.Reported l ∧ l.hi ≤ s.position
  covered : CoveredBelow links s.Reported s.position
  room : ∀ l ∈ links, s.reporter l ≠ .waiting → l.lo < s.buf.m_tail + capacity.val
  pending : ∀ l ∈ links, s.Pending l → s.buf.m_links (slot_index capacity l.lo) = l.hi - l.lo
  filled : ∀ i, s.buf.m_links i ≠ 0 → ∃ l ∈ links, s.Pending l ∧ slot_index capacity l.lo = i
  claiming : ∀ position next, s.advancer = .claiming position next →
    ∃ l ∈ links, s.Reported l ∧ l.lo = position ∧ l.hi = next

/-- The links lie in the positions that `next_position` does not refuse. -/
structure Links (links : Finset Interval) : Prop where
  tiling : Tiling links
  bound : ∀ l ∈ links, l.hi < position_max

theorem window_new (capacity : Capacity) (links : Finset Interval) :
    Window links (Tracking.new capacity) where
  no_fault := rfl
  tail_le := Nat.le_refl _
  position_lt := (by decide : 0 < position_max)
  followed := by
    intro l _ hlt
    exact absurd hlt (Nat.not_lt_zero _)
  covered := coveredBelow_zero _
  room := by simp [Tracking.new]
  pending := by simp [Tracking.new, Tracking.Pending, Tracking.Reported]
  filled := by simp [Tracking.new, LinkBuf.new]
  claiming := by simp [Tracking.new]

/-- Two links that both lie in the window have the same slot only if they are
one link. -/
theorem Window.eq_of_slot (h : Window links s) (hlinks : Links links) {l m : Interval} (hl : l ∈ links)
    (hm : m ∈ links) (hllo : s.position ≤ l.lo) (hmlo : s.position ≤ m.lo) (hlpc : s.reporter l ≠ .waiting)
    (hmpc : s.reporter m ≠ .waiting) (hslot : slot_index capacity l.lo = slot_index capacity m.lo) : l = m := by
  have htail := h.tail_le
  have hlroom := h.room l hl hlpc
  have hmroom := h.room m hm hmpc
  exact hlinks.tiling.eq_of_lo_eq hl hm
    (slot_index_inj hllo (by omega) hmlo (by omega) hslot)

/-- A link that has not been stored is still ahead of the followed position. -/
theorem Window.position_le_of_not_reported (h : Window links s) {l : Interval} (hl : l ∈ links)
    (hnot : ¬ s.Reported l) : s.position ≤ l.lo := by
  by_contra hlt
  exact hnot (h.followed l hl (by omega)).1

/-- The slot of a link that may be added and has not been stored is empty. -/
theorem Window.slot_empty (h : Window links s) (hlinks : Links links) {l : Interval} (hl : l ∈ links)
    (hpc : s.reporter l ≠ .waiting) (hnot : ¬ s.Reported l) :
    s.buf.m_links (slot_index capacity l.lo) = 0 := by
  by_contra hne
  obtain ⟨m, hm, hpending, hslot⟩ := h.filled _ hne
  have hwaiting : s.reporter m ≠ .waiting := by
    rw [hpending.1]
    simp
  have heq := h.eq_of_slot hlinks hm hl hpending.2 (h.position_le_of_not_reported hl hnot) hwaiting hpc hslot
  subst heq
  exact hnot hpending.1

/-- A non-empty slot of the followed position holds the link that starts there. -/
theorem Window.link_at (h : Window links s)
    (hne : s.buf.m_links (slot_index capacity s.position) ≠ 0) :
    ∃ l ∈ links, s.Reported l ∧ l.lo = s.position ∧ s.buf.m_links (slot_index capacity s.position) = l.hi - l.lo := by
  obtain ⟨l, hl, hpending, hslot⟩ := h.filled _ hne
  have hroom := h.room l hl (by rw [hpending.1]; simp)
  have htail := h.tail_le
  have hcap := capacity.pos
  have hlo : l.lo = s.position :=
    slot_index_inj hpending.2 (by omega) (Nat.le_refl _) (by omega) hslot
  exact ⟨l, hl, hpending.1, hlo, by rw [← hslot]; exact h.pending l hl hpending⟩

/-- A reporter that neither stores nor has stored its link may move on. -/
theorem Window.reporter_update (h : Window links s) {l : Interval} {pc : ReporterPc}
    (hold : s.reporter l ≠ .reported) (hpc : pc ≠ .reported) (hroom : l.lo < s.buf.m_tail + capacity.val) :
    Window links { s with reporter := Function.update s.reporter l pc } := by
  have hreported : ∀ m, Function.update s.reporter l pc m = .reported ↔ s.reporter m = .reported := by
    intro m
    by_cases hm : m = l
    · subst m
      rw [Function.update_self]
      exact ⟨fun hp => absurd hp hpc, fun hp => absurd hp hold⟩
    · rw [Function.update_of_ne hm]
  have hsame : ({ s with reporter := Function.update s.reporter l pc } : Tracking capacity).Reported = s.Reported := by
    funext m
    exact propext (hreported m)
  refine { h with followed := ?_, covered := ?_, room := ?_, pending := ?_, filled := ?_, claiming := ?_ }
  · rw [hsame]
    exact h.followed
  · rw [hsame]
    exact h.covered
  · intro m hm hwait
    by_cases hml : m = l
    · subst m
      exact hroom
    · dsimp only at hwait
      rw [Function.update_of_ne hml] at hwait
      exact h.room m hm hwait
  · intro m hm hpending
    exact h.pending m hm ⟨(hreported m).mp hpending.1, hpending.2⟩
  · intro i hi
    obtain ⟨m, hm, hpending, hslot⟩ := h.filled i hi
    exact ⟨m, hm, ⟨(hreported m).mpr hpending.1, hpending.2⟩, hslot⟩
  · rw [hsame]
    exact h.claiming

/-- The tracking thread may move on as long as the followed position stays. -/
theorem Window.advancer_update (h : Window links s) {pc : AdvancePc} {results : List Bool}
    (hposition : pc.position s.buf.m_tail = s.position)
    (hclaiming : ∀ position next, pc = .claiming position next →
      ∃ l ∈ links, s.Reported l ∧ l.lo = position ∧ l.hi = next) :
    Window links { s with advancer := pc, results := results } := by
  have hsame : ({ s with advancer := pc, results := results } : Tracking capacity).position = s.position := hposition
  refine { h with tail_le := ?_, position_lt := ?_, followed := ?_, covered := ?_, pending := ?_, filled := ?_,
                  claiming := hclaiming }
  · rw [hsame]
    exact h.tail_le
  · rw [hsame]
    exact h.position_lt
  · rw [hsame]
    exact h.followed
  · rw [hsame]
    exact h.covered
  · intro m hm hpending
    exact h.pending m hm ⟨hpending.1, by rw [← hsame]; exact hpending.2⟩
  · intro i hi
    obtain ⟨m, hm, hpending, hslot⟩ := h.filled i hi
    exact ⟨m, hm, ⟨hpending.1, by rw [hsame]; exact hpending.2⟩, hslot⟩

/-- Storing a link fills its own slot and no other. -/
theorem Window.store (h : Window links s) (hlinks : Links links) {l : Interval} (hl : l ∈ links)
    (hpc : s.reporter l = .checked) :
    Window links { s with
      buf := s.buf.add_link_store l.lo l.hi
      reporter := Function.update s.reporter l .reported } := by
  have hforward := hlinks.tiling.nonempty l hl
  have hbound := hlinks.bound l hl
  have hnot : ¬ s.Reported l := by
    rw [Tracking.Reported, hpc]
    simp
  have hahead := h.position_le_of_not_reported hl hnot
  have hdistance : u64_sub l.hi l.lo = l.hi - l.lo := by
    unfold position_max at hbound
    exact u64_sub_of_le (by omega) (by omega)
  have hself : Function.update s.reporter l .reported l = .reported := Function.update_self _ _ _
  have hmono : ∀ m, s.Reported m → Function.update s.reporter l .reported m = .reported := by
    intro m hm
    by_cases hml : m = l
    · rw [hml, hself]
    · rw [Function.update_of_ne hml]
      exact hm
  have hback : ∀ m, Function.update s.reporter l .reported m = .reported → m ≠ l → s.Reported m := by
    intro m hm hml
    rwa [Function.update_of_ne hml] at hm
  refine { h with followed := ?_, covered := ?_, room := ?_, pending := ?_, filled := ?_, claiming := ?_ }
  · intro m hm hlt
    exact ⟨hmono m (h.followed m hm hlt).1, (h.followed m hm hlt).2⟩
  · exact h.covered.mono fun m _ hm => hmono m hm
  · intro m hm hwait
    by_cases hml : m = l
    · subst m
      exact h.room l hl (by rw [hpc]; simp)
    · dsimp only at hwait
      rw [Function.update_of_ne hml] at hwait
      exact h.room m hm hwait
  · intro m hm hpending
    by_cases hml : m = l
    · subst m
      show Function.update s.buf.m_links _ _ _ = _
      rw [Function.update_self, hdistance]
    · have hreported := hback m hpending.1 hml
      have hne : slot_index capacity m.lo ≠ slot_index capacity l.lo := by
        intro hslot
        exact hml (h.eq_of_slot hlinks hm hl hpending.2 hahead (by rw [hreported]; simp) (by rw [hpc]; simp) hslot)
      show Function.update s.buf.m_links _ _ _ = _
      rw [Function.update_of_ne hne]
      exact h.pending m hm ⟨hreported, hpending.2⟩
  · intro i hi
    by_cases hil : i = slot_index capacity l.lo
    · exact ⟨l, hl, ⟨hself, hahead⟩, hil.symm⟩
    · have hold : s.buf.m_links i ≠ 0 := by
        intro hzero
        apply hi
        show Function.update s.buf.m_links _ _ _ = _
        rw [Function.update_of_ne hil, hzero]
      obtain ⟨m, hm, hpending, hslot⟩ := h.filled i hold
      exact ⟨m, hm, ⟨hmono m hpending.1, hpending.2⟩, hslot⟩
  · intro position next hclaim
    obtain ⟨m, hm, hreported, hlo, hhi⟩ := h.claiming position next hclaim
    exact ⟨m, hm, hmono m hreported, hlo, hhi⟩

/-- Reclaiming the slot of a followed link leaves the slots of the links ahead
alone, and the position moves to the end of the link. -/
theorem Window.claim (h : Window links s) (hlinks : Links links) {position next : Nat}
    (hpc : s.advancer = .claiming position next) :
    Window links { s with buf := s.buf.claim_position position, advancer := .reading next } := by
  obtain ⟨l, hl, hreported, rfl, rfl⟩ := h.claiming position next hpc
  have hposition : s.position = l.lo := by rw [Tracking.position, hpc]; rfl
  have hforward := hlinks.tiling.nonempty l hl
  have htail := h.tail_le
  have hlpc : s.reporter l ≠ .waiting := by
    rw [hreported]
    simp
  have hnext : ({ s with buf := s.buf.claim_position l.lo, advancer := .reading l.hi } : Tracking capacity).position =
      l.hi := rfl
  have hahead : ∀ m ∈ links, l.hi ≤ m.lo → s.reporter m ≠ .waiting →
      slot_index capacity m.lo ≠ slot_index capacity l.lo := by
    intro m hm hle hmpc hslot
    have heq := h.eq_of_slot hlinks hm hl (by omega) (by omega) hmpc hlpc hslot
    subst heq
    omega
  refine { h with tail_le := ?_, position_lt := ?_, followed := ?_, covered := ?_, room := ?_, pending := ?_,
                  filled := ?_, claiming := by simp }
  · rw [hnext]
    show s.buf.m_tail ≤ l.hi
    omega
  · rw [hnext]
    exact hlinks.bound l hl
  · rw [hnext]
    intro m hm hlt
    by_cases hlow : m.lo < s.position
    · have hfollowed := h.followed m hm hlow
      exact ⟨hfollowed.1, by omega⟩
    · have heq := hlinks.tiling.disjoint m hm l hl m.lo ⟨Nat.le_refl _, hlinks.tiling.nonempty m hm⟩ ⟨by omega, hlt⟩
      subst heq
      exact ⟨hreported, Nat.le_refl _⟩
  · rw [hnext]
    exact CoveredBelow.extend (hposition ▸ h.covered) hl hreported
  · exact h.room
  · intro m hm hpending
    have hle : l.hi ≤ m.lo := hpending.2
    have hmpc : s.reporter m ≠ .waiting := by
      rw [show s.reporter m = .reported from hpending.1]
      simp
    show Function.update s.buf.m_links _ _ _ = _
    rw [Function.update_of_ne (hahead m hm hle hmpc)]
    exact h.pending m hm ⟨hpending.1, by omega⟩
  · intro i hi
    have hne : i ≠ slot_index capacity l.lo := by
      rintro rfl
      apply hi
      exact Function.update_self _ _ _
    have hold : s.buf.m_links i ≠ 0 := by
      intro hzero
      apply hi
      show Function.update s.buf.m_links _ _ _ = _
      rw [Function.update_of_ne hne, hzero]
    obtain ⟨m, hm, hpending, hslot⟩ := h.filled i hold
    have hml : l.lo ≠ m.lo := by
      intro heq
      apply hne
      rw [← hslot, heq]
    have hle : l.hi ≤ m.lo := by
      have hlo := hpending.2
      exact hlinks.tiling.hi_le_lo hl hm (by omega)
    exact ⟨m, hm, ⟨hpending.1, hle⟩, hslot⟩

/-- Publishing the followed position only widens the window. -/
theorem Window.publish (h : Window links s) {position : Nat} {results : List Bool}
    (hpc : s.advancer = .publishing position) :
    Window links { s with
      buf := { s.buf with m_tail := position }
      advancer := .idle
      results := results } := by
  have hposition : s.position = position := by rw [Tracking.position, hpc]; rfl
  have hnext : ({ s with buf := { s.buf with m_tail := position }, advancer := .idle, results := results } :
      Tracking capacity).position = s.position := hposition.symm
  have htail := h.tail_le
  refine { h with tail_le := ?_, position_lt := ?_, followed := ?_, covered := ?_, room := ?_, pending := ?_,
                  filled := ?_, claiming := by simp }
  · rw [hnext]
    exact hposition.ge
  · rw [hnext]
    exact h.position_lt
  · rw [hnext]
    exact h.followed
  · rw [hnext]
    exact h.covered
  · intro m hm hwait
    have hroom := h.room m hm hwait
    show m.lo < position + capacity.val
    omega
  · intro m hm hpending
    exact h.pending m hm ⟨hpending.1, by rw [← hnext]; exact hpending.2⟩
  · intro i hi
    obtain ⟨m, hm, hpending, hslot⟩ := h.filled i hi
    exact ⟨m, hm, ⟨hpending.1, by rw [hnext]; exact hpending.2⟩, hslot⟩

/-- The assertions of `add_link` hold for a link that may be added. -/
theorem Window.add_link_load_eq_none (h : Window links s) (hlinks : Links links) {l : Interval} (hl : l ∈ links)
    (hpc : s.reporter l = .granted) : s.buf.add_link_load l.lo l.hi = none := by
  have hforward := hlinks.tiling.nonempty l hl
  have hdistance : u64_sub l.hi l.lo ≤ position_max := Nat.le_sub_one_of_lt (u64_lt _)
  have hempty := h.slot_empty hlinks hl (by rw [hpc]; simp) (by rw [Tracking.Reported, hpc]; simp)
  rw [LinkBuf.add_link_load, if_neg (not_not.mpr hforward), if_neg (not_not.mpr hdistance),
    if_neg (not_not.mpr hempty)]

/-- The assertion of `next_position` holds at the followed position. -/
theorem Window.next_position_no_overflow (h : Window links s) (hlinks : Links links) :
    s.position < position_max - s.buf.m_links (slot_index capacity s.position) := by
  have hlt := h.position_lt
  by_cases hzero : s.buf.m_links (slot_index capacity s.position) = 0
  · rw [hzero]
    exact hlt
  · obtain ⟨l, hl, _, hlo, hlen⟩ := h.link_at hzero
    have hbound := hlinks.bound l hl
    omega

/-- The tracking thread reads the end of the link at its position. -/
theorem Window.next_at (h : Window links s) (hlinks : Links links) {position : Nat}
    (hpc : s.advancer = .reading position)
    (hlink : s.buf.m_links (slot_index capacity position) ≠ 0) :
    ∃ l ∈ links, s.Reported l ∧ l.lo = position ∧
      l.hi = u64 (position + s.buf.m_links (slot_index capacity position)) := by
  have hposition : s.position = position := by rw [Tracking.position, hpc]; rfl
  obtain ⟨l, hl, hreported, hlo, hlen⟩ := h.link_at (by rw [hposition]; exact hlink)
  rw [hposition] at hlo hlen
  have hforward := hlinks.tiling.nonempty l hl
  have hbound := hlinks.bound l hl
  unfold position_max at hbound
  refine ⟨l, hl, hreported, hlo, ?_⟩
  rw [hlen, u64_of_lt (by omega)]
  omega

/-- Every step of a reporter or of the tracking thread keeps the window. -/
theorem Window.step (h : Window links s) (hlinks : Links links) {act : TrackAct} {next : Tracking capacity}
    (hstep : s.step links act = some next) : Window links next := by
  obtain ⟨_, hmove⟩ := Tracking.step_move hstep
  cases hmove with
  | no_space => exact h
  | space l hl hpc hspace =>
    have hroom := u64_le (s.buf.m_tail + capacity.val)
    exact h.reporter_update (by rw [hpc]; simp) (by simp) (by omega)
  | add_link_fault l hl hpc fault hload =>
    rw [h.add_link_load_eq_none hlinks hl hpc] at hload
    cases hload
  | add_link_load l hl hpc hload =>
    exact h.reporter_update (by rw [hpc]; simp) (by simp) (h.room l hl (by rw [hpc]; simp))
  | add_link_store l hl hpc => exact h.store hlinks hl hpc
  | call hpc => exact h.advancer_update (by rw [Tracking.position, hpc]; rfl) (by simp)
  | load_tail hpc => exact h.advancer_update (by rw [Tracking.position, hpc]; rfl) (by simp)
  | overflow position hpc hover =>
    have hfree := h.next_position_no_overflow hlinks
    rw [show s.position = position by rw [Tracking.position, hpc]; rfl] at hfree
    exact absurd hfree hover
  | stop position hpc hzero => exact h.advancer_update (by rw [Tracking.position, hpc]; rfl) (by simp)
  | follow position hpc hlink hgo =>
    apply h.advancer_update (by rw [Tracking.position, hpc]; rfl)
    intro position' next' heq
    cases heq
    exact h.next_at hlinks hpc hlink
  | claim position after hpc => exact h.claim hlinks hpc
  | moved position hpc hgt => exact h.advancer_update (by rw [Tracking.position, hpc]; rfl) (by simp)
  | unmoved position hpc hle =>
    have htail := h.tail_le
    have hposition : s.position = position := by rw [Tracking.position, hpc]; rfl
    apply h.advancer_update
    · show s.buf.m_tail = s.position
      omega
    · simp
  | publish position hpc => exact h.publish hpc

theorem window_of_run (hlinks : Links links) {acts : List TrackAct}
    (hrun : run (Tracking.step links) (.new capacity) acts = some s) : Window links s :=
  run_invariant (fun _ _ _ hs hstep => hs.step hlinks hstep) (window_new capacity links) hrun

end tc_rdma.link_buf
