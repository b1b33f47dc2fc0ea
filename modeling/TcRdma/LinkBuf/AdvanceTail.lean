import TcRdma.LinkBuf.Window

open tc_rdma.machine

namespace tc_rdma.link_buf

variable {capacity : Capacity} {links : Finset Interval} {s next last : Tracking capacity}
  {acts : List TrackAct}

/-- The tail only moves when it is published, and then forward. -/
theorem Window.tail_mono (h : Window links s) {act : TrackAct} (hstep : s.step links act = some next) :
    s.buf.m_tail ≤ next.buf.m_tail := by
  obtain ⟨_, hmove⟩ := Tracking.step_move hstep
  cases hmove with
  | publish position hpc =>
    have htail := h.tail_le
    rwa [Tracking.position, hpc] at htail
  | _ => exact Nat.le_refl _

theorem Window.tail_mono_run (h : Window links s) (hlinks : Links links)
    (hrun : run (Tracking.step links) s acts = some last) : s.buf.m_tail ≤ last.buf.m_tail :=
  run_related (R := fun a b => a.buf.m_tail ≤ b.buf.m_tail) (fun _ => Nat.le_refl _) Nat.le_trans
    (fun _ _ _ hs hstep => hs.step hlinks hstep) (fun _ _ _ hs hstep => hs.tail_mono hstep) h hrun

/-- The tracking thread has left its loop. -/
def AdvancePc.Stopped : AdvancePc → Prop
  | .idle => True
  | .comparing _ => True
  | .publishing _ => True
  | _ => False

/-- Once the loop has been left, no stored link starts at its position. -/
def Tracking.Settled (links : Finset Interval) (s : Tracking capacity) : Prop :=
  s.advancer.Stopped → ∀ l ∈ links, s.Reported l → l.lo ≠ s.position

/-- The loop stops only where no link starts. -/
theorem Window.stop_gap (h : Window links s) (hlinks : Links links)
    (hzero : s.buf.m_links (slot_index capacity s.position) = 0 ∨
      u64 (s.position + s.buf.m_links (slot_index capacity s.position)) = s.position)
    {l : Interval} (hl : l ∈ links) (hreported : s.Reported l) : l.lo ≠ s.position := by
  intro hlo
  have hforward := hlinks.tiling.nonempty l hl
  have hbound := hlinks.bound l hl
  unfold position_max at hbound
  have hslot := h.pending l hl ⟨hreported, hlo.ge⟩
  rw [hlo] at hslot
  rcases hzero with hzero | hsame
  · omega
  · rw [hslot, u64_of_lt (by omega)] at hsame
    omega

theorem Tracking.Settled.reporter_update {l : Interval} {pc : ReporterPc} (hset : s.Settled links)
    (hpc : pc ≠ .reported) :
    Tracking.Settled links { s with reporter := Function.update s.reporter l pc } := by
  intro hstopped m hm hreported
  change Function.update s.reporter l pc m = .reported at hreported
  have hml : m ≠ l := by
    rintro rfl
    rw [Function.update_self] at hreported
    exact hpc hreported
  rw [Function.update_of_ne hml] at hreported
  exact hset hstopped m hm hreported

/-- As long as no link is stored, every step keeps the gap. -/
theorem Window.settled_step (h : Window links s) (hlinks : Links links) {act : TrackAct}
    (hquiet : ∀ l, act ≠ .add_link_store l) (hset : s.Settled links)
    (hstep : s.step links act = some next) : next.Settled links := by
  obtain ⟨_, hmove⟩ := Tracking.step_move hstep
  cases hmove with
  | no_space => exact hset
  | space l hl hpc hspace => exact hset.reporter_update (by simp)
  | add_link_fault l hl hpc fault hload => exact hset
  | add_link_load l hl hpc hload => exact hset.reporter_update (by simp)
  | add_link_store l hl hpc => exact absurd rfl (hquiet l)
  | call hpc => exact False.elim
  | load_tail hpc => exact False.elim
  | overflow position hpc hover => exact hset
  | stop position hpc hzero =>
    intro _ l hl hreported
    have hposition : s.position = position := by rw [Tracking.position, hpc]; rfl
    rw [← hposition] at hzero
    have hgap := h.stop_gap hlinks hzero hl hreported
    rwa [hposition] at hgap
  | follow position hpc hlink hgo => exact False.elim
  | claim position after hpc => exact False.elim
  | moved position hpc hgt =>
    have hgap := hset (by rw [hpc]; trivial)
    rw [Tracking.position, hpc] at hgap
    exact fun _ => hgap
  | unmoved position hpc hle =>
    have htail := h.tail_le
    have hgap := hset (by rw [hpc]; trivial)
    rw [Tracking.position, hpc] at hgap htail
    have hsame : position = s.buf.m_tail := Nat.le_antisymm hle htail
    rw [hsame] at hgap
    exact fun _ => hgap
  | publish position hpc =>
    have hgap := hset (by rw [hpc]; trivial)
    rw [Tracking.position, hpc] at hgap
    exact fun _ => hgap

theorem Window.settled_run (h : Window links s) (hlinks : Links links)
    (hquiet : ∀ l, .add_link_store l ∉ acts) (hset : s.Settled links)
    (hrun : run (Tracking.step links) s acts = some last) : Window links last ∧ last.Settled links := by
  refine run_invariant_of (P := fun act => ∀ l, act ≠ .add_link_store l)
    (I := fun s => Window links s ∧ s.Settled links) ?_ ?_ ⟨h, hset⟩ hrun
  · rintro s act next hact ⟨hs, hgap⟩ hstep
    exact ⟨hs.step hlinks hstep, hs.settled_step hlinks hact hgap hstep⟩
  · rintro act hact l rfl
    exact hquiet l hact

/-- A call without any store leaves the tail at the end of the stored links
that are connected to the start. -/
theorem Window.isGreatest_tail (h : Window links s) (hset : s.Settled links) (hidle : s.advancer = .idle) :
    IsGreatest {p | CoveredBelow links s.Reported p} s.buf.m_tail := by
  have hposition : s.position = s.buf.m_tail := by rw [Tracking.position, hidle]; rfl
  have hgap := hset (by rw [hidle]; trivial)
  rw [hposition] at hgap
  apply CoveredBelow.isGreatest
  · rw [← hposition]
    exact h.covered
  · rintro l hl hreported ⟨hle, hlt⟩
    have hne := hgap l hl hreported
    have hfollowed := (h.followed l hl (by omega)).2
    omega

/-- The links that start at `p` or later. -/
def ahead (links : Finset Interval) (p : Nat) : Nat := (links.filter fun l => p ≤ l.lo).card

theorem ahead_le (links : Finset Interval) (p : Nat) : ahead links p ≤ links.card :=
  Finset.card_filter_le _ _

/-- The steps that are left of a call of `advance_tail`, at most. -/
def AdvancePc.rank (links : Finset Interval) (tail : Nat) : AdvancePc → Nat
  | .idle => 0
  | .publishing _ => 1
  | .comparing _ => 2
  | .reading position => 2 * ahead links position + 3
  | .claiming _ after => 2 * ahead links after + 4
  | .started => 2 * ahead links tail + 4

def Tracking.rank (links : Finset Interval) (s : Tracking capacity) : Nat :=
  s.advancer.rank links s.buf.m_tail

theorem AdvancePc.rank_le (links : Finset Interval) (tail : Nat) (pc : AdvancePc) :
    pc.rank links tail ≤ 2 * links.card + 4 := by
  cases pc with
  | idle => simp [AdvancePc.rank]
  | publishing => simp [AdvancePc.rank]
  | comparing => simp [AdvancePc.rank]
  | reading position =>
    have hle := ahead_le links position
    show 2 * ahead links position + 3 ≤ _
    omega
  | claiming position after =>
    have hle := ahead_le links after
    show 2 * ahead links after + 4 ≤ _
    omega
  | started =>
    have hle := ahead_le links tail
    show 2 * ahead links tail + 4 ≤ _
    omega

/-- Each step of the call lowers the rank, and no reporter raises it. -/
theorem Window.rank_step (h : Window links s) (hlinks : Links links) {act : TrackAct} (hcall : act ≠ .call)
    (hstep : s.step links act = some next) :
    next.rank links + (if act = .advance then 1 else 0) ≤ s.rank links := by
  obtain ⟨_, hmove⟩ := Tracking.step_move hstep
  cases hmove with
  | no_space => simp
  | space => simp [Tracking.rank]
  | add_link_fault => simp [Tracking.rank]
  | add_link_load => simp [Tracking.rank]
  | add_link_store => simp [Tracking.rank, LinkBuf.add_link_store]
  | call => exact absurd rfl hcall
  | load_tail hpc => simp [Tracking.rank, hpc, AdvancePc.rank]
  | overflow position hpc hover =>
    have hfree := h.next_position_no_overflow hlinks
    rw [show s.position = position by rw [Tracking.position, hpc]; rfl] at hfree
    exact absurd hfree hover
  | stop position hpc => simp [Tracking.rank, hpc, AdvancePc.rank]
  | follow position hpc hlink hgo =>
    obtain ⟨l, hl, _, rfl, hhi⟩ := h.next_at hlinks hpc hlink
    have hfewer := card_ahead_lt hl (hlinks.tiling.nonempty l hl)
    simp only [Tracking.rank, hpc, AdvancePc.rank, ahead, ← hhi, if_true]
    omega
  | claim position after hpc => simp [Tracking.rank, hpc, AdvancePc.rank]
  | moved position hpc => simp [Tracking.rank, hpc, AdvancePc.rank]
  | unmoved position hpc => simp [Tracking.rank, hpc, AdvancePc.rank]
  | publish position hpc => simp [Tracking.rank, hpc, AdvancePc.rank]

theorem Window.advance_count_le (h : Window links s) (hlinks : Links links) (hcall : .call ∉ acts)
    (hrun : run (Tracking.step links) s acts = some last) : acts.count .advance ≤ 2 * links.card + 4 := by
  have hcount := run_countP_le (P := fun act => act ≠ .call) (I := Window links)
    (r := Tracking.rank links) (c := fun act => act == .advance)
    (fun _ _ _ _ hs hstep => hs.step hlinks hstep)
    (fun _ _ _ hact hs hstep => by simpa using hs.rank_step hlinks hact hstep)
    (fun act hact heq => absurd (heq ▸ hact) hcall) h hrun
  have hrank : s.rank links ≤ 2 * links.card + 4 := AdvancePc.rank_le links _ _
  rw [List.count]
  omega

/-- A call that has not returned can always take its next step. -/
theorem Tracking.advance_enabled (hfault : s.fault = none) (hbusy : s.advancer ≠ .idle) :
    ∃ next, s.step links .advance = some next := by
  obtain ⟨result, hresult⟩ : ∃ result, s.buf.advance_tail s.advancer = some result := by
    unfold LinkBuf.advance_tail LinkBuf.advance_tail_until
    split
    · exact absurd ‹_› hbusy
    · exact ⟨_, rfl⟩
    · split
      · exact ⟨_, rfl⟩
      · split <;> exact ⟨_, rfl⟩
    · exact ⟨_, rfl⟩
    · split <;> exact ⟨_, rfl⟩
    · exact ⟨_, rfl⟩
  unfold Tracking.step
  rw [hfault]
  dsimp only
  rw [hresult]
  cases result with
  | error fault => exact ⟨_, rfl⟩
  | ok moved => exact ⟨_, rfl⟩

/-- Any number of reporters add their links in any order while one thread
calls `advance_tail`. No assertion fails, a link is only ever stored into an
empty slot, and the tail moves forward over reported links only. A call ends
within a bounded number of its steps. If no link was stored during it, the
tail has reached the largest position below which everything is reported. -/
theorem LinkBuf.advance_tail_correct (hlinks : Links links)
    (hrun : run (Tracking.step links) (.new capacity) acts = some s) :
    s.fault = none ∧
    (∀ l ∈ links, s.reporter l = .checked → s.buf.m_links (slot_index capacity l.lo) = 0) ∧
    CoveredBelow links s.Reported s.buf.m_tail ∧
    (∀ more last, run (Tracking.step links) s more = some last → s.buf.m_tail ≤ last.buf.m_tail) ∧
    ∀ more last, run (Tracking.step links) s (.call :: more) = some last → .call ∉ more →
      more.count .advance ≤ 2 * links.card + 4 ∧
      (last.advancer ≠ .idle → ∃ next, last.step links .advance = some next) ∧
      ((∀ l, .add_link_store l ∉ more) → last.advancer = .idle →
        IsGreatest {p | CoveredBelow links last.Reported p} last.buf.m_tail) := by
  have h := window_of_run hlinks hrun
  refine ⟨h.no_fault, ?_, ?_, ?_, ?_⟩
  · intro l hl hpc
    exact h.slot_empty hlinks hl (by rw [hpc]; simp) (by rw [Tracking.Reported, hpc]; simp)
  · intro x hx
    have htail := h.tail_le
    exact h.covered x (by omega)
  · intro more last hmore
    exact h.tail_mono_run hlinks hmore
  · intro more last hmore hcall
    obtain ⟨started, hstep, hmore⟩ := run_cons_eq_some.mp hmore
    have hstarted := h.step hlinks hstep
    have hset : started.Settled links := by
      obtain ⟨_, hmove⟩ := Tracking.step_move hstep
      cases hmove with
      | call hpc => exact False.elim
    refine ⟨hstarted.advance_count_le hlinks hcall hmore, ?_, ?_⟩
    · intro hbusy
      have hlast := run_invariant (fun _ _ _ hs hstep => hs.step hlinks hstep) hstarted hmore
      exact Tracking.advance_enabled hlast.no_fault hbusy
    · intro hquiet hidle
      obtain ⟨hlast, hgap⟩ := hstarted.settled_run hlinks hquiet hset hmore
      exact hlast.isGreatest_tail hgap hidle

/-- Three links for a buffer of two slots. The third one does not fit before
the tail has passed the first, and the second is stored before the first. -/
def reorderedLinks : Finset Interval := {⟨0, 1⟩, ⟨1, 2⟩, ⟨2, 5⟩}

def reorderedReports : List TrackAct :=
  [.has_space ⟨1, 2⟩, .has_space ⟨0, 1⟩, .add_link_load ⟨1, 2⟩, .add_link_store ⟨1, 2⟩, .call, .advance,
    .advance, .advance, .add_link_load ⟨0, 1⟩, .add_link_store ⟨0, 1⟩]

def reorderedCall : List TrackAct := List.replicate 8 .advance

theorem reorderedLinks_links : Links reorderedLinks where
  tiling := {
    nonempty := by decide
    disjoint := by
      simp only [reorderedLinks, Finset.mem_insert, Finset.mem_singleton, Interval.Has]
      rintro l (rfl | rfl | rfl) m (rfl | rfl | rfl) x hl hm <;> first | rfl | (dsimp only at hl hm; omega)
    closed := by
      simp only [reorderedLinks, Finset.mem_insert, Finset.mem_singleton, Interval.Has]
      rintro l (rfl | rfl | rfl) x hx
      · exact absurd hx (Nat.not_lt_zero _)
      · exact ⟨⟨0, 1⟩, by simp, by dsimp only at hx ⊢; omega⟩
      · by_cases hzero : x = 0
        · exact ⟨⟨0, 1⟩, by simp, by dsimp only at hx ⊢; omega⟩
        · exact ⟨⟨1, 2⟩, by simp, by dsimp only at hx ⊢; omega⟩ }
  bound := by decide

theorem LinkBuf.advance_tail_correct_reordered :
    ∃ s last : Tracking ⟨2, by decide, by decide, by decide⟩,
      run (Tracking.step reorderedLinks) (.new _) reorderedReports = some s ∧
      run (Tracking.step reorderedLinks) s (.call :: reorderedCall) = some last ∧
      last.buf.m_tail = 2 ∧ IsGreatest {p | CoveredBelow reorderedLinks last.Reported p} last.buf.m_tail := by
  have hends : ((run (Tracking.step reorderedLinks) (.new ⟨2, by decide, by decide, by decide⟩)
      (reorderedReports ++ .call :: reorderedCall)).any
        fun last => decide (last.advancer = .idle ∧ last.buf.m_tail = 2)) = true := by decide
  obtain ⟨last, hrun, hidle⟩ := (Option.any_eq_true _ _).mp hends
  obtain ⟨hidle, htail⟩ := of_decide_eq_true hidle
  obtain ⟨s, hfront, hback⟩ := run_append_eq_some.mp hrun
  have hcorrect := LinkBuf.advance_tail_correct reorderedLinks_links hfront
  have hquiet : ∀ l, .add_link_store l ∉ reorderedCall := by
    intro l
    simp [reorderedCall]
  exact ⟨s, last, hfront, hback, htail, (hcorrect.2.2.2.2 _ _ hback (by decide)).2.2 hquiet hidle⟩

end tc_rdma.link_buf
