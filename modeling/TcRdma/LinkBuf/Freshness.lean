import TcRdma.LinkBuf.AdvanceTail

open tc_rdma.machine

namespace tc_rdma.link_buf

variable {capacity : Capacity} {links : Finset Interval} {s next last : Tracking capacity}
  {act : TrackAct} {acts more : List TrackAct}

theorem Tracking.reported_mono (hstep : s.step links act = some next) {l : Interval} (hl : s.Reported l) :
    next.Reported l := by
  have hkept : ∀ (m : Interval) (pc : ReporterPc), s.reporter m ≠ .reported →
      Function.update s.reporter m pc l = .reported := by
    intro m pc hm
    have hne : l ≠ m := by
      intro heq
      subst heq
      exact hm hl
    exact (Function.update_of_ne hne _ _).trans hl
  obtain ⟨_, hmove⟩ := Tracking.step_move hstep
  cases hmove with
  | space m hm hpc hspace => exact hkept m _ (by rw [hpc]; simp)
  | add_link_load m hm hpc hload => exact hkept m _ (by rw [hpc]; simp)
  | add_link_store m hm hpc => exact hkept m _ (by rw [hpc]; simp)
  | _ => exact hl

theorem Tracking.reported_mono_run (hrun : run (Tracking.step links) s acts = some last) {l : Interval}
    (hl : s.Reported l) : last.Reported l :=
  run_invariant (I := fun a => a.Reported l) (fun _ _ _ ha hstep => Tracking.reported_mono hstep ha) hl hrun

/-- Until the loop has been left, the call has published and returned nothing. -/
theorem Tracking.step_of_not_stopped (hbusy : ¬ s.advancer.Stopped) (hstep : s.step links act = some next) :
    next.buf.m_tail = s.buf.m_tail ∧ next.results = s.results := by
  obtain ⟨_, hmove⟩ := Tracking.step_move hstep
  cases hmove with
  | unmoved position hpc hle => exact absurd (by rw [hpc]; trivial) hbusy
  | publish position hpc => exact absurd (by rw [hpc]; trivial) hbusy
  | _ => exact ⟨rfl, rfl⟩

/-- The loop is only left where no stored link starts. The followed position
is then the largest one below which everything is reported. -/
theorem Window.stop_isGreatest (h : Window links s) (hlinks : Links links) (hbusy : ¬ s.advancer.Stopped)
    (hstep : s.step links act = some next) (hstopped : next.advancer.Stopped) :
    next.advancer = .comparing s.position ∧ IsGreatest {p | CoveredBelow links s.Reported p} s.position := by
  obtain ⟨_, hmove⟩ := Tracking.step_move hstep
  cases hmove with
  | stop position hpc hzero =>
    have hposition : s.position = position := by rw [Tracking.position, hpc]; rfl
    subst hposition
    refine ⟨rfl, h.covered.isGreatest ?_⟩
    rintro l hl hreported ⟨hle, hlt⟩
    have hne := h.stop_gap hlinks hzero hl hreported
    have hfollowed := (h.followed l hl (by omega)).2
    omega
  | call => exact hstopped.elim
  | load_tail => exact hstopped.elim
  | follow => exact hstopped.elim
  | claim => exact hstopped.elim
  | moved position hpc => exact absurd (by rw [hpc]; trivial) hbusy
  | unmoved position hpc => exact absurd (by rw [hpc]; trivial) hbusy
  | publish position hpc => exact absurd (by rw [hpc]; trivial) hbusy
  | _ => exact absurd hstopped hbusy

/-- What the end of a call keeps: it compares, publishes the position it
stopped at and returns whether the tail has moved. -/
inductive Returning (s : Tracking capacity) (position : Nat) (last : Tracking capacity) : Prop where
  | comparing (hpc : last.advancer = .comparing position) (htail : last.buf.m_tail = s.buf.m_tail)
      (hresults : last.results = s.results)
  | publishing (hpc : last.advancer = .publishing position) (htail : last.buf.m_tail = s.buf.m_tail)
      (hmoved : s.buf.m_tail < position) (hresults : last.results = s.results)
  | returned (hpc : last.advancer = .idle) (htail : last.buf.m_tail = position)
      (hresults : last.results = s.results ++ [decide (s.buf.m_tail < position)])

theorem Returning.step {a : Tracking capacity} {position : Nat} (hreturn : Returning a position s)
    (h : Window links s) (hcall : act ≠ .call) (hstep : s.step links act = some next) :
    Returning a position next := by
  obtain ⟨_, hmove⟩ := Tracking.step_move hstep
  cases hreturn with
  | comparing hpc htail hresults =>
    have hfollowed := h.tail_le
    rw [Tracking.position, hpc, AdvancePc.position] at hfollowed
    cases hmove with
    | moved p hother hgt =>
      rw [hpc] at hother
      cases hother
      exact .publishing rfl htail (by omega) hresults
    | unmoved p hother hle =>
      rw [hpc] at hother
      cases hother
      refine .returned rfl (Nat.le_antisymm hfollowed hle) ?_
      rw [decide_eq_false (by omega), hresults]
    | load_tail hother | overflow _ hother | stop _ hother | follow _ hother | claim _ _ hother | publish _ hother =>
      rw [hpc] at hother
      cases hother
    | call => exact absurd rfl hcall
    | _ => exact .comparing hpc htail hresults
  | publishing hpc htail hmoved hresults =>
    cases hmove with
    | publish p hother =>
      rw [hpc] at hother
      cases hother
      refine .returned rfl rfl ?_
      rw [decide_eq_true hmoved, hresults]
    | load_tail hother | overflow _ hother | stop _ hother | follow _ hother | claim _ _ hother | moved _ hother
    | unmoved _ hother =>
      rw [hpc] at hother
      cases hother
    | call => exact absurd rfl hcall
    | _ => exact .publishing hpc htail hmoved hresults
  | returned hpc htail hresults =>
    cases hmove with
    | load_tail hother | overflow _ hother | stop _ hother | follow _ hother | claim _ _ hother | moved _ hother
    | unmoved _ hother | publish _ hother =>
      rw [hpc] at hother
      cases hother
    | call => exact absurd rfl hcall
    | _ => exact .returned hpc htail hresults

/-- A call of `advance_tail` that runs beside any number of reporters takes
effect at one moment between its call and its return. The tail it leaves is
the largest position below which everything is reported at that moment, so no
link stored before the call is missed, and it tells whether the tail moved. -/
theorem LinkBuf.advance_tail_linearizable (hlinks : Links links)
    (hrun : run (Tracking.step links) (.new capacity) acts = some s)
    (hmore : run (Tracking.step links) s (.call :: more) = some last) (hcall : .call ∉ more)
    (hidle : last.advancer = .idle) :
    (∃ front back mid, more = front ++ back ∧ run (Tracking.step links) s (.call :: front) = some mid ∧
      run (Tracking.step links) mid back = some last ∧
      IsGreatest {p | CoveredBelow links mid.Reported p} last.buf.m_tail) ∧
    (∀ p, CoveredBelow links s.Reported p → p ≤ last.buf.m_tail) ∧
    last.results = s.results ++ [decide (s.buf.m_tail < last.buf.m_tail)] := by
  have h := window_of_run hlinks hrun
  obtain ⟨started, hstep, hrest⟩ := run_cons_eq_some.mp hmore
  have hstarted := h.step hlinks hstep
  obtain ⟨hpc, htail, hresults⟩ : started.advancer = .started ∧ started.buf.m_tail = s.buf.m_tail ∧
      started.results = s.results := by
    obtain ⟨_, hmove⟩ := Tracking.step_move hstep
    cases hmove with
    | call => exact ⟨rfl, rfl, rfl⟩
  -- the step at which the loop is left
  obtain ⟨front, act, back, mid, after, rfl, hfront, hcross, hback, hmeet, hbusy, hstopped⟩ :=
    run_crosses (G := fun a : Tracking capacity => a.advancer.Stopped) (by rw [hpc]; exact id)
      (by rw [hidle]; trivial) hrest
  obtain ⟨hmid, hmidtail, hmidresults⟩ : Window links mid ∧ mid.buf.m_tail = started.buf.m_tail ∧
      mid.results = started.results := by
    refine run_invariant_of_meet (I := fun a => Window links a ∧ a.buf.m_tail = started.buf.m_tail ∧
      a.results = started.results) ?_ hmeet ⟨hstarted, rfl, rfl⟩ hfront
    rintro a act b hrunning ⟨ha, hatail, haresults⟩ hab
    obtain ⟨hbtail, hbresults⟩ := Tracking.step_of_not_stopped hrunning hab
    exact ⟨ha.step hlinks hab, hbtail.trans hatail, hbresults.trans haresults⟩
  obtain ⟨hcomparing, hgreatest⟩ := hmid.stop_isGreatest hlinks hbusy hcross hstopped
  obtain ⟨hafter, hafterresults⟩ := Tracking.step_of_not_stopped hbusy hcross
  have hquiet : ∀ k ∈ back, k ≠ .call := by
    intro k hk heq
    exact hcall (by simp [heq ▸ hk])
  obtain ⟨-, hreturn⟩ : Window links last ∧ Returning mid mid.position last := by
    refine run_invariant_of (P := fun k => k ≠ .call) (I := fun a => Window links a ∧ Returning mid mid.position a)
      ?_ hquiet ⟨hmid.step hlinks hcross, .comparing hcomparing hafter hafterresults⟩ hback
    rintro a k b hk ⟨ha, hreturning⟩ hab
    exact ⟨ha.step hlinks hab, hreturning.step ha hk hab⟩
  obtain ⟨hlasttail, hlastresults⟩ : last.buf.m_tail = mid.position ∧
      last.results = mid.results ++ [decide (mid.buf.m_tail < mid.position)] := by
    cases hreturn with
    | comparing hother => rw [hidle] at hother; cases hother
    | publishing hother => rw [hidle] at hother; cases hother
    | returned hother hlasttail hlastresults => exact ⟨hlasttail, hlastresults⟩
  have hcalled : run (Tracking.step links) s (.call :: front) = some mid :=
    run_cons_eq_some.mpr ⟨started, hstep, hfront⟩
  rw [← hlasttail] at hgreatest
  refine ⟨⟨front, act :: back, mid, rfl, hcalled, run_cons_eq_some.mpr ⟨after, hcross, hback⟩, hgreatest⟩, ?_, ?_⟩
  · intro p hp
    exact hgreatest.2 (hp.mono fun l _ hl => Tracking.reported_mono_run hcalled hl)
  · rw [hlastresults, hmidresults, hresults, hmidtail, htail, hlasttail]

/-- The first link is stored right after the loop has looked for it. -/
def overtakenReports : List TrackAct :=
  [.has_space ⟨1, 2⟩, .has_space ⟨0, 1⟩, .add_link_load ⟨1, 2⟩, .add_link_store ⟨1, 2⟩, .add_link_load ⟨0, 1⟩]

def overtakenCall : List TrackAct := [.advance, .advance, .add_link_store ⟨0, 1⟩, .advance]

theorem LinkBuf.advance_tail_linearizable_overtaken :
    ∃ s last : Tracking ⟨2, by decide, by decide, by decide⟩,
      run (Tracking.step reorderedLinks) s (.call :: overtakenCall) = some last ∧ last.Reported ⟨0, 1⟩ ∧
      last.buf.m_tail = 0 ∧ last.results = s.results ++ [false] ∧
      ∃ front back mid, overtakenCall = front ++ back ∧
        run (Tracking.step reorderedLinks) s (.call :: front) = some mid ∧
        run (Tracking.step reorderedLinks) mid back = some last ∧
        IsGreatest {p | CoveredBelow reorderedLinks mid.Reported p} last.buf.m_tail := by
  have hends : ((run (Tracking.step reorderedLinks) (.new ⟨2, by decide, by decide, by decide⟩)
      overtakenReports).any fun s => (run (Tracking.step reorderedLinks) s (.call :: overtakenCall)).any
        fun last => decide (last.advancer = .idle ∧ last.reporter ⟨0, 1⟩ = .reported ∧ last.buf.m_tail = 0 ∧
          s.buf.m_tail = 0)) = true := by decide
  obtain ⟨s, hrun, hcall⟩ := (Option.any_eq_true _ _).mp hends
  obtain ⟨last, hmore, hfacts⟩ := (Option.any_eq_true _ _).mp hcall
  obtain ⟨hidle, hreported, htail, hbefore⟩ := of_decide_eq_true hfacts
  obtain ⟨hmoment, -, hresults⟩ :=
    LinkBuf.advance_tail_linearizable reorderedLinks_links hrun hmore (by decide) hidle
  rw [htail, hbefore] at hresults
  exact ⟨s, last, hmore, hreported, htail, hresults, hmoment⟩

end tc_rdma.link_buf
