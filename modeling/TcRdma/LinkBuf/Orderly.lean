import Mathlib.Data.Fintype.Basic
import TcRdma.LinkBuf.Traffic
import TcRdma.LinkBuf.Window

open tc_rdma.machine

namespace tc_rdma.link_buf

variable {capacity : Capacity} {ι : Type} {s next : Traffic ι capacity}

def TrackerPc.position (tail : Nat) : TrackerPc → Nat
  | .advancing pc => pc.position tail
  | .clearing _ => tail

/-- The position up to which the tracking thread has followed links. -/
def Traffic.position (s : Traffic ι capacity) : Nat := s.tracker.position s.buf.m_tail

/-- One of the positions that have slots of their own from `lo` on. -/
def InWindow (capacity : Capacity) (lo position : Nat) : Prop := lo ≤ position ∧ position < lo + capacity.val

/-- The link is in its slot, or it is about to be stored there. -/
def Traffic.Waiting (s : Traffic ι capacity) (l : Interval) : Prop :=
  (∃ i, s.holds i = some l) ∨ ∃ t, s.adding t = some l

/-- A link is added inside the window that begins at the followed position, and
where none is waiting. Whenever the followed position moves, the waiting links
are inside the window that begins at the new one. -/
def Traffic.Orderly (s : Traffic ι capacity) : TrafficAct ι → Prop
  | .add_link_load _ l => InWindow capacity s.position l.lo ∧ ∀ m, s.Waiting m → m.lo ≠ l.lo
  | .advance => ∀ position next, s.tracker = .advancing (.claiming position next) →
      ∀ m, s.Waiting m → m.lo ≠ position → InWindow capacity next m.lo
  | .set_tail position => ∀ m, s.Waiting m → InWindow capacity position m.lo
  | .clear => ∀ i, s.tracker = .clearing i → capacity.val ≤ i → ∀ m, s.Waiting m → InWindow capacity 0 m.lo
  | _ => True

theorem Traffic.forall_waiting {P : Interval → Prop} :
    (∀ m, s.Waiting m → P m) ↔ (∀ i, ∀ m ∈ s.holds i, P m) ∧ ∀ t, ∀ m ∈ s.adding t, P m := by
  constructor
  · exact fun h => ⟨fun i m hm => h m (.inl ⟨i, hm⟩), fun t m hm => h m (.inr ⟨t, hm⟩)⟩
  · rintro ⟨hholds, hadding⟩ m (⟨i, hi⟩ | ⟨t, ht⟩)
    · exact hholds i m hi
    · exact hadding t m ht

/-- The link whose slot the thread is about to reclaim. -/
def TrackerPc.claims : TrackerPc → Option (Nat × Nat)
  | .advancing (.claiming position next) => some (position, next)
  | _ => none

theorem TrackerPc.claims_iff {pc : TrackerPc} {position after : Nat} :
    pc = .advancing (.claiming position after) ↔ pc.claims = some (position, after) := by
  unfold TrackerPc.claims
  split <;> simp_all

/-- The slot that `clear_links` comes to next. -/
def TrackerPc.clears : TrackerPc → Option Nat
  | .clearing i => some i
  | .advancing _ => none

theorem TrackerPc.clears_iff {pc : TrackerPc} {i : Nat} : pc = .clearing i ↔ pc.clears = some i := by
  cases pc <;> simp [TrackerPc.clears]

section Decidable

variable [Fintype ι]

instance {P : Interval → Prop} [DecidablePred P] (s : Traffic ι capacity) : Decidable (∀ m, s.Waiting m → P m) :=
  decidable_of_iff' _ Traffic.forall_waiting

instance (lo position : Nat) : Decidable (InWindow capacity lo position) := instDecidableAnd

/-- Whether a step is orderly can be computed. -/
instance (s : Traffic ι capacity) (act : TrafficAct ι) : Decidable (s.Orderly act) :=
  match act with
  | .add_link_load _ _ => instDecidableAnd
  | .advance =>
    decidable_of_iff (∀ claim ∈ s.tracker.claims, ∀ m, s.Waiting m → m.lo ≠ claim.1 → InWindow capacity claim.2 m.lo)
      ⟨fun h position after hpc => h (position, after) (TrackerPc.claims_iff.mp hpc),
        fun h claim hclaim => h claim.1 claim.2 (TrackerPc.claims_iff.mpr hclaim)⟩
  | .set_tail position =>
    inferInstanceAs (Decidable (∀ m, s.Waiting m → InWindow capacity position m.lo))
  | .clear =>
    decidable_of_iff (∀ i ∈ s.tracker.clears, capacity.val ≤ i → ∀ m, s.Waiting m → InWindow capacity 0 m.lo)
      ⟨fun h i hpc => h i (TrackerPc.clears_iff.mp hpc), fun h i hi => h i (TrackerPc.clears_iff.mpr hi)⟩
  | .has_space _ => .isTrue trivial
  | .add_link_store _ => .isTrue trivial
  | .advance_tail => .isTrue trivial
  | .clear_links => .isTrue trivial

end Decidable

/-- The link was added after the last call of `clear_links`, and it has not been
followed since. -/
def AddedSince (l : Interval) (events : List LinkEvent) : Prop :=
  ∃ before after, events = before ++ .added l :: after ∧ .cleared ∉ after ∧ .followed l.lo l.hi ∉ after

/-- Where an event takes the tail. -/
def LinkEvent.leads : LinkEvent → Option Nat
  | .followed _ to_pos => some to_pos
  | .tail_set position => some position
  | _ => none

/-- Where the history leads: to the end of the link followed last, or to where
the tail was set after that. -/
def reached (events : List LinkEvent) : Nat := (events.filterMap LinkEvent.leads).getLast?.getD 0

@[simp]
theorem reached_concat (events : List LinkEvent) (event : LinkEvent) :
    reached (events ++ [event]) = event.leads.getD (reached events) := by
  unfold reached
  cases hleads : event.leads <;> simp [hleads]

/-- What is followed is a link that was added at this very position, to which
the history has led, and each link that is added is followed at most once. -/
def LinkEvent.Right (front : List LinkEvent) : LinkEvent → Prop
  | .followed from_pos to_pos => AddedSince ⟨from_pos, to_pos⟩ front ∧ from_pos = reached front
  | _ => True

/-- `add_link` has found its slot empty, only links have been followed, the
tail (or the position a running `advance_tail` has come to) is where that leads,
and the link the tracking thread is about to follow is the one whose distance
is in the slot. -/
structure Traffic.Right (s : Traffic ι capacity) : Prop where
  not_taken : s.fault ≠ some .slot_not_empty
  followed : Always LinkEvent.Right s.events
  led : s.position = reached s.events
  held : ∀ position next, s.tracker = .advancing (.claiming position next) →
    s.holds (slot_index capacity position) = some ⟨position, next⟩

/-- The slot has been cleared by the call of `clear_links` that is going on. -/
def TrackerPc.Cleared (i : Fin capacity.val) : TrackerPc → Prop
  | .advancing _ => True
  | .clearing k => i.val < k

/-- Each slot that is not empty holds a link of the window that begins at the
followed position, and a link about to be stored there has an empty slot. -/
structure Placed (s : Traffic ι capacity) : Prop where
  not_taken : s.fault ≠ some .slot_not_empty
  followed : Always LinkEvent.Right s.events
  led : s.position = reached s.events
  tail_le : s.buf.m_tail ≤ s.position
  holds_none : ∀ i, s.holds i = none → s.buf.m_links i = 0
  holds_some : ∀ i l, s.holds i = some l → slot_index capacity l.lo = i ∧ s.buf.m_links i = l.hi - l.lo
  forward : ∀ l, s.Waiting l → l.lo < l.hi ∧ l.hi < 2 ^ 64
  window : ∀ l, s.Waiting l → InWindow capacity s.position l.lo
  adding : ∀ t l, s.adding t = some l → s.holds (slot_index capacity l.lo) = none
  one : ∀ t u l m, s.adding t = some l → s.adding u = some m → l.lo = m.lo → t = u
  claiming : ∀ position next, s.tracker = .advancing (.claiming position next) →
    s.holds (slot_index capacity position) = some ⟨position, next⟩
  since : ∀ i l, s.holds i = some l → s.tracker.Cleared i → AddedSince l s.events

theorem placed_new (ι : Type) (capacity : Capacity) : Placed (Traffic.new ι capacity) where
  not_taken := by simp [Traffic.new]
  followed := always_nil
  led := rfl
  tail_le := Nat.le_refl _
  holds_none := by simp [Traffic.new, LinkBuf.new]
  holds_some := by simp [Traffic.new]
  forward := by simp [Traffic.new, Traffic.Waiting]
  window := by simp [Traffic.new, Traffic.Waiting]
  adding := by simp [Traffic.new]
  one := by simp [Traffic.new]
  claiming := by simp [Traffic.new]
  since := by simp [Traffic.new]

theorem Placed.right (h : Placed s) : s.Right := ⟨h.not_taken, h.followed, h.led, h.claiming⟩

theorem AddedSince.append {l : Interval} {events : List LinkEvent} (h : AddedSince l events) {event : LinkEvent}
    (hcleared : event ≠ .cleared) (hfollowed : event ≠ .followed l.lo l.hi) : AddedSince l (events ++ [event]) := by
  obtain ⟨before, after, rfl, hafter, hpending⟩ := h
  refine ⟨before, after ++ [event], by simp, ?_, ?_⟩
  · simp [hafter, hcleared.symm]
  · simp [hpending, hfollowed.symm]

/-- Waiting links with the same slot start at the same position. -/
theorem Placed.lo_eq (h : Placed s) {l m : Interval} (hl : s.Waiting l) (hm : s.Waiting m)
    (hslot : slot_index capacity l.lo = slot_index capacity m.lo) : l.lo = m.lo := by
  obtain ⟨hl, hl'⟩ := h.window l hl
  obtain ⟨hm, hm'⟩ := h.window m hm
  exact slot_index_inj hl hl' hm hm' hslot

/-- The slot of a position in the window holds the link that starts there. -/
theorem Placed.held_at (h : Placed s) {position : Nat} (hwindow : InWindow capacity s.position position) {l : Interval}
    (hl : s.holds (slot_index capacity position) = some l) : l.lo = position := by
  obtain ⟨hl', hl''⟩ := h.window l (.inl ⟨_, hl⟩)
  exact slot_index_inj hl' hl'' hwindow.1 hwindow.2 (h.holds_some _ l hl).1

theorem inWindow_self (capacity : Capacity) (position : Nat) : InWindow capacity position position := by
  have hpos := capacity.pos
  exact ⟨Nat.le_refl _, by omega⟩

/-- The tracking thread and the tail may move as long as every waiting link is
inside the window that begins at the position followed then. -/
theorem Placed.track (h : Placed s) {tail : Nat} (tracker : TrackerPc) (htail : tail ≤ tracker.position tail)
    (hled : tracker.position tail = reached s.events)
    (hwindow : ∀ l, s.Waiting l → InWindow capacity (tracker.position tail) l.lo)
    (hclaiming : ∀ position next, tracker = .advancing (.claiming position next) →
      s.holds (slot_index capacity position) = some ⟨position, next⟩)
    (hsince : ∀ i l, s.holds i = some l → tracker.Cleared i → AddedSince l s.events) :
    Placed { s with buf := { s.buf with m_tail := tail }, tracker := tracker } :=
  { h with
    led := hled
    tail_le := htail
    window := hwindow
    claiming := hclaiming
    since := hsince }

/-- The tail may be set to where every waiting link is inside the window. -/
theorem Placed.tail_set (h : Placed s) {position : Nat}
    (hwindow : ∀ l, s.Waiting l → InWindow capacity position l.lo)
    (hsince : ∀ i l, s.holds i = some l → AddedSince l s.events) :
    Placed { s with
      buf := { s.buf with m_tail := position }
      tracker := .advancing .idle
      events := s.events ++ [.tail_set position] } :=
  { h with
    followed := always_concat.mpr ⟨h.followed, trivial⟩
    led := by rw [reached_concat]; rfl
    tail_le := Nat.le_refl _
    window := hwindow
    claiming := by simp
    since := fun i l hi _ => (hsince i l hi).append (by simp) (by simp) }

theorem update_some_eq_some {α β : Type} [DecidableEq α] {f : α → Option β} {a i : α} {b c : β}
    (h : Function.update f a (some b) i = some c) : (i = a ∧ c = b) ∨ (i ≠ a ∧ f i = some c) := by
  by_cases hi : i = a
  · rw [hi, Function.update_self] at h
    exact .inl ⟨hi, (Option.some.inj h).symm⟩
  · rw [Function.update_of_ne hi] at h
    exact .inr ⟨hi, h⟩

theorem update_none_eq_some {α β : Type} [DecidableEq α] {f : α → Option β} {a i : α} {c : β}
    (h : Function.update f a none i = some c) : i ≠ a ∧ f i = some c := by
  by_cases hi : i = a
  · rw [hi, Function.update_self] at h
    cases h
  · rw [Function.update_of_ne hi] at h
    exact ⟨hi, h⟩

theorem LinkBuf.add_link_load_eq_none {buf : LinkBuf capacity} {from_pos to_pos : Nat}
    (hload : buf.add_link_load from_pos to_pos = none) : from_pos < to_pos := by
  by_contra hnot
  rw [LinkBuf.add_link_load, if_pos (by omega)] at hload
  cases hload

theorem LinkBuf.add_link_load_ne_taken {buf : LinkBuf capacity} {from_pos to_pos : Nat}
    (hempty : buf.m_links (slot_index capacity from_pos) = 0) :
    buf.add_link_load from_pos to_pos ≠ some .slot_not_empty := by
  unfold LinkBuf.add_link_load
  split
  · simp
  · split
    · simp
    · rw [if_neg (not_not.mpr hempty)]
      simp

/-- A link that is added where it should be finds its slot empty. -/
theorem Placed.slot_none (h : Placed s) {l : Interval} (hwindow : InWindow capacity s.position l.lo)
    (hfree : ∀ m, s.Waiting m → m.lo ≠ l.lo) : s.holds (slot_index capacity l.lo) = none := by
  cases hslot : s.holds (slot_index capacity l.lo) with
  | none => rfl
  | some m => exact absurd (h.held_at hwindow hslot) (hfree m (.inl ⟨_, hslot⟩))

/-- Reclaiming the slot of the link that is followed. -/
theorem Placed.claim (h : Placed s) {position after : Nat} (hpc : s.tracker = .advancing (.claiming position after))
    (hwindow : ∀ m, s.Waiting m → m.lo ≠ position → InWindow capacity after m.lo) :
    Placed { s with
      buf := s.buf.claim_position position
      tracker := .advancing (.reading after)
      holds := Function.update s.holds (slot_index capacity position) none
      events := s.events ++ [.followed position after] } := by
  have hclaiming := h.claiming position after hpc
  have hposition : s.position = position := by rw [Traffic.position, hpc]; rfl
  have hforward := (h.forward _ (.inl ⟨_, hclaiming⟩)).1
  have hholds : ∀ i m, Function.update s.holds (slot_index capacity position) none i = some m →
      i ≠ slot_index capacity position ∧ s.holds i = some m := fun i m hi => update_none_eq_some hi
  have hwaiting : ∀ m, (∃ i, Function.update s.holds (slot_index capacity position) none i = some m) ∨
      (∃ u, s.adding u = some m) → s.Waiting m ∧ m.lo ≠ position := by
    rintro m (⟨i, hi⟩ | ⟨u, hu⟩)
    · obtain ⟨hne, hi'⟩ := hholds i m hi
      refine ⟨.inl ⟨i, hi'⟩, ?_⟩
      rintro rfl
      exact hne (h.holds_some i m hi').1.symm
    · refine ⟨.inr ⟨u, hu⟩, ?_⟩
      rintro rfl
      rw [h.adding u m hu] at hclaiming
      cases hclaiming
  refine { not_taken := h.not_taken, followed := always_concat.mpr ⟨h.followed, ?_, ?_⟩, led := ?_, tail_le := ?_,
           holds_none := ?_, holds_some := ?_, forward := ?_, window := ?_, adding := ?_, one := h.one,
           claiming := by simp, since := ?_ }
  · exact h.since _ _ hclaiming (by rw [hpc]; trivial)
  · rw [← h.led, hposition]
  · rw [reached_concat]
    rfl
  · have htail := h.tail_le
    show s.buf.m_tail ≤ after
    dsimp only at hforward
    omega
  · intro i hi
    show Function.update s.buf.m_links _ _ _ = _
    by_cases hip : i = slot_index capacity position
    · rw [hip, Function.update_self]
    · dsimp only at hi
      rw [Function.update_of_ne hip] at hi
      rw [Function.update_of_ne hip]
      exact h.holds_none i hi
  · intro i m hi
    obtain ⟨hne, hi⟩ := hholds i m hi
    show _ ∧ Function.update s.buf.m_links _ _ _ = _
    rw [Function.update_of_ne hne]
    exact h.holds_some i m hi
  · intro m hm
    exact h.forward m (hwaiting m hm).1
  · intro m hm
    exact hwindow m (hwaiting m hm).1 (hwaiting m hm).2
  · intro u m hu
    show Function.update s.holds _ _ _ = _
    by_cases hslot : slot_index capacity m.lo = slot_index capacity position
    · rw [hslot, Function.update_self]
    · rw [Function.update_of_ne hslot]
      exact h.adding u m hu
  · intro i m hi _
    obtain ⟨hne, hheld⟩ := hholds i m hi
    apply (h.since i m hheld (by rw [hpc]; trivial)).append (by simp)
    -- the link that is followed was in the slot that is reclaimed
    intro heq
    obtain ⟨rfl, -⟩ := LinkEvent.followed.inj heq
    exact hne (h.holds_some i m hheld).1.symm

theorem Placed.clear_slot (h : Placed s) {i : Nat} (hpc : s.tracker = .clearing i) (hi : i < capacity.val) :
    Placed { s with
      buf := { s.buf with m_links := Function.update s.buf.m_links ⟨i, hi⟩ 0 }
      tracker := .clearing (i + 1)
      holds := fun slot => if slot.val = i then none else s.holds slot } := by
  have hposition : s.position = s.buf.m_tail := by rw [Traffic.position, hpc]; rfl
  have hholds : ∀ slot m, (if slot.val = i then none else s.holds slot) = some m →
      slot.val ≠ i ∧ s.holds slot = some m := by
    intro slot m hslot
    split at hslot
    · cases hslot
    · exact ⟨‹_›, hslot⟩
  have hwaiting : ∀ m, (∃ slot : Fin capacity.val, (if slot.val = i then none else s.holds slot) = some m) ∨
      (∃ u, s.adding u = some m) → s.Waiting m :=
    fun m hm => hm.imp_left fun ⟨slot, hslot⟩ => ⟨slot, (hholds slot m hslot).2⟩
  refine { not_taken := h.not_taken, followed := h.followed, led := ?_, tail_le := Nat.le_refl _, holds_none := ?_,
           holds_some := ?_, forward := fun m hm => h.forward m (hwaiting m hm), window := ?_, adding := ?_,
           one := h.one, claiming := by simp, since := ?_ }
  · rw [← h.led, hposition]
    rfl
  · intro slot hslot
    show Function.update s.buf.m_links _ _ _ = _
    by_cases heq : slot = ⟨i, hi⟩
    · rw [heq, Function.update_self]
    · have hne : slot.val ≠ i := fun hval => heq (Fin.ext hval)
      dsimp only at hslot
      rw [if_neg hne] at hslot
      rw [Function.update_of_ne heq]
      exact h.holds_none slot hslot
  · intro slot m hslot
    obtain ⟨hne, hslot⟩ := hholds slot m hslot
    show _ ∧ Function.update s.buf.m_links _ _ _ = _
    rw [Function.update_of_ne fun heq => hne (congrArg Fin.val heq)]
    exact h.holds_some slot m hslot
  · intro m hm
    show InWindow capacity s.buf.m_tail m.lo
    rw [← hposition]
    exact h.window m (hwaiting m hm)
  · intro u m hu
    show (if _ then none else s.holds _) = _
    rw [h.adding u m hu, ite_self]
  · intro slot m hslot hcleared
    obtain ⟨hne, hslot⟩ := hholds slot m hslot
    apply h.since slot m hslot
    rw [hpc]
    exact Nat.lt_of_le_of_ne (Nat.le_of_lt_succ hcleared) hne

theorem Placed.advance (h : Placed s) {pc pc' : AdvancePc} {buf : LinkBuf capacity} {result : Option Bool}
    (hpc : s.tracker = .advancing pc) (hmove : AdvanceMove s.buf pc (.ok (buf, pc', result)))
    (horderly : s.Orderly .advance) :
    Placed { s with
      buf := buf
      tracker := .advancing pc'
      holds := pc.release s.holds
      events := s.events ++ pc.follows } := by
  have hposition : s.position = pc.position s.buf.m_tail := by rw [Traffic.position, hpc]; rfl
  have hled := h.led
  have htail := h.tail_le
  have hwindow := h.window
  have hsince : ∀ i l, s.holds i = some l → AddedSince l s.events :=
    fun i l hi => h.since i l hi (by rw [hpc]; trivial)
  rw [hposition] at hled htail hwindow
  cases hmove with
  | load_tail =>
    simp only [AdvancePc.release, AdvancePc.follows, List.append_nil]
    exact h.track _ (Nat.le_refl _) hled hwindow (by simp) fun i l hi _ => hsince i l hi
  | stop position hfits hzero =>
    simp only [AdvancePc.release, AdvancePc.follows, List.append_nil]
    exact h.track _ htail hled hwindow (by simp) fun i l hi _ => hsince i l hi
  | follow position hfits hlink hgo =>
    simp only [AdvancePc.release, AdvancePc.follows, List.append_nil]
    refine h.track _ htail hled hwindow ?_ fun i l hi _ => hsince i l hi
    intro position' after heq
    cases heq
    -- the slot holds a link of the window, which starts where the thread is
    cases hslot : s.holds (slot_index capacity position) with
    | none => exact absurd (h.holds_none _ hslot) hlink
    | some l =>
      have hlo : l.lo = position := h.held_at (hposition ▸ inWindow_self capacity position) hslot
      have hdistance := (h.holds_some _ l hslot).2
      have hforward := (h.forward l (.inl ⟨_, hslot⟩)).1
      rw [hdistance] at hfits ⊢
      unfold position_max at hfits
      rw [u64_of_lt (by omega), ← hlo, Nat.add_sub_cancel' (by omega)]
  | claim position after =>
    exact h.claim hpc (horderly position after hpc)
  | moved position hgt =>
    simp only [AdvancePc.release, AdvancePc.follows, List.append_nil]
    exact h.track _ htail hled hwindow (by simp) fun i l hi _ => hsince i l hi
  | unmoved position hle =>
    simp only [AdvancePc.release, AdvancePc.follows, List.append_nil]
    have heq : s.buf.m_tail = position := Nat.le_antisymm htail hle
    exact h.track _ (Nat.le_refl _) (heq ▸ hled) (heq ▸ hwindow) (by simp) fun i l hi _ => hsince i l hi
  | publish position =>
    simp only [AdvancePc.release, AdvancePc.follows, List.append_nil]
    exact h.track _ (Nat.le_refl _) hled hwindow (by simp) fun i l hi _ => hsince i l hi

variable [DecidableEq ι]

theorem Placed.add_link_load (h : Placed s) {t : ι} {l : Interval} (hforward : l.lo < l.hi) (hbound : l.hi < 2 ^ 64)
    (hwindow : InWindow capacity s.position l.lo) (hfree : ∀ m, s.Waiting m → m.lo ≠ l.lo) :
    Placed { s with adding := Function.update s.adding t (some l) } := by
  have hadding : ∀ u m, Function.update s.adding t (some l) u = some m →
      (u = t ∧ m = l) ∨ (u ≠ t ∧ s.adding u = some m) :=
    fun u m hu => update_some_eq_some hu
  have hwaiting : ∀ m, ({ s with adding := Function.update s.adding t (some l) } : Traffic ι capacity).Waiting m →
      m = l ∨ s.Waiting m := by
    rintro m (hheld | ⟨u, hu⟩)
    · exact .inr (.inl hheld)
    · exact (hadding u m hu).imp (fun hm => hm.2) fun hm => .inr ⟨u, hm.2⟩
  refine { h with forward := ?_, window := ?_, adding := ?_, one := ?_ }
  · intro m hm
    rcases hwaiting m hm with rfl | hm
    · exact ⟨hforward, hbound⟩
    · exact h.forward m hm
  · intro m hm
    rcases hwaiting m hm with rfl | hm
    · exact hwindow
    · exact h.window m hm
  · intro u m hu
    rcases hadding u m hu with ⟨-, rfl⟩ | ⟨-, hold⟩
    · exact h.slot_none hwindow hfree
    · exact h.adding u m hold
  · intro u v m n hu hv heq
    rcases hadding u m hu with ⟨hut, rfl⟩ | ⟨-, hu'⟩
    · rcases hadding v n hv with ⟨hvt, -⟩ | ⟨-, hv'⟩
      · rw [hut, hvt]
      · exact absurd heq.symm (hfree n (.inr ⟨v, hv'⟩))
    · rcases hadding v n hv with ⟨-, rfl⟩ | ⟨-, hv'⟩
      · exact absurd heq (hfree m (.inr ⟨u, hu'⟩))
      · exact h.one u v m n hu' hv' heq

/-- The link that is stored gets the slot that was kept empty for it. -/
theorem Placed.add_link_store (h : Placed s) {t : ι} {l : Interval} (hl : s.adding t = some l) :
    Placed { s with
      buf := s.buf.add_link_store l.lo l.hi
      adding := Function.update s.adding t none
      holds := Function.update s.holds (slot_index capacity l.lo) (some l)
      events := s.events ++ [.added l] } := by
  obtain ⟨hforward, hbound⟩ := h.forward l (.inr ⟨t, hl⟩)
  have hdistance : u64_sub l.hi l.lo = l.hi - l.lo := u64_sub_of_le (by omega) hbound
  have hadding : ∀ u m, Function.update s.adding t none u = some m → u ≠ t ∧ s.adding u = some m :=
    fun u m hu => update_none_eq_some hu
  have hholds : ∀ i m, Function.update s.holds (slot_index capacity l.lo) (some l) i = some m →
      (i = slot_index capacity l.lo ∧ m = l) ∨ (i ≠ slot_index capacity l.lo ∧ s.holds i = some m) :=
    fun i m hi => update_some_eq_some hi
  have hwaiting : ∀ m, (∃ i, Function.update s.holds (slot_index capacity l.lo) (some l) i = some m) ∨
      (∃ u, Function.update s.adding t none u = some m) → s.Waiting m := by
    rintro m (⟨i, hi⟩ | ⟨u, hu⟩)
    · rcases hholds i m hi with ⟨-, rfl⟩ | ⟨-, hi⟩
      · exact .inr ⟨t, hl⟩
      · exact .inl ⟨i, hi⟩
    · exact .inr ⟨u, (hadding u m hu).2⟩
  refine { tail_le := h.tail_le, not_taken := h.not_taken, followed := always_concat.mpr ⟨h.followed, trivial⟩,
           led := by rw [reached_concat]; exact h.led, forward := ?_, holds_none := ?_, holds_some := ?_, window := ?_, adding := ?_, one := ?_,
           claiming := ?_, since := ?_ }
  · intro i hi
    dsimp only at hi
    have hne : i ≠ slot_index capacity l.lo := by
      rintro rfl
      rw [Function.update_self] at hi
      cases hi
    rw [Function.update_of_ne hne] at hi
    show Function.update s.buf.m_links _ _ _ = _
    rw [Function.update_of_ne hne]
    exact h.holds_none i hi
  · intro i m hi
    show _ ∧ Function.update s.buf.m_links _ _ _ = _
    rcases hholds i m hi with ⟨rfl, rfl⟩ | ⟨hne, hi⟩
    · exact ⟨rfl, by rw [Function.update_self, hdistance]⟩
    · rw [Function.update_of_ne hne]
      exact h.holds_some i m hi
  · intro m hm
    exact h.forward m (hwaiting m hm)
  · intro m hm
    exact h.window m (hwaiting m hm)
  · intro u m hu
    obtain ⟨hut, hu⟩ := hadding u m hu
    have hne : slot_index capacity m.lo ≠ slot_index capacity l.lo := by
      intro hslot
      exact hut (h.one u t m l hu hl (h.lo_eq (.inr ⟨u, hu⟩) (.inr ⟨t, hl⟩) hslot))
    show Function.update s.holds _ _ _ = _
    rw [Function.update_of_ne hne]
    exact h.adding u m hu
  · intro u v m n hu hv heq
    exact h.one u v m n (hadding u m hu).2 (hadding v n hv).2 heq
  · intro position after hpc
    have hclaiming := h.claiming position after hpc
    have hne : slot_index capacity position ≠ slot_index capacity l.lo := by
      intro hslot
      rw [hslot, h.adding t l hl] at hclaiming
      cases hclaiming
    show Function.update s.holds _ _ _ = _
    rw [Function.update_of_ne hne]
    exact hclaiming
  · intro i m hi hcleared
    rcases hholds i m hi with ⟨-, rfl⟩ | ⟨-, hi⟩
    · exact ⟨s.events, [], rfl, by simp, by simp⟩
    · exact (h.since i m hi hcleared).append (by simp) (by simp)

theorem Placed.step (h : Placed s) {act : TrafficAct ι} (horderly : s.Orderly act) (hstep : s.step act = some next) :
    Placed next := by
  obtain ⟨-, hmove⟩ := Traffic.step_move hstep
  cases hmove with
  | no_space position => exact h
  | space position => exact { h with }
  | add_link_fault t l fault hload =>
    refine { h with not_taken := ?_ }
    have hempty := h.holds_none _ (h.slot_none horderly.1 horderly.2)
    rintro ⟨⟩
    exact LinkBuf.add_link_load_ne_taken hempty hload
  | add_link_load t l hidle hbound hload =>
    exact h.add_link_load (LinkBuf.add_link_load_eq_none hload) hbound horderly.1 horderly.2
  | add_link_store t l hadding => exact h.add_link_store hadding
  | advance_tail hpc =>
    have hposition : s.position = s.buf.m_tail := by rw [Traffic.position, hpc]; rfl
    exact h.track _ (Nat.le_refl _) (hposition ▸ h.led) (hposition ▸ h.window) (by simp) fun i l hi _ =>
      h.since i l hi (by rw [hpc]; trivial)
  | advance_fault pc fault hpc hmove =>
    cases hmove with
    | overflow position hover => exact { h with not_taken := by simp }
  | advance pc pc' buf result hpc hmove => exact h.advance hpc hmove horderly
  | set_tail position hpc =>
    have hset := h.tail_set horderly fun i l hi => h.since i l hi (by rw [hpc]; trivial)
    rw [← hpc] at hset
    exact hset
  | clear_links hpc =>
    have hposition : s.position = s.buf.m_tail := by rw [Traffic.position, hpc]; rfl
    have hcleared := h.track (.clearing 0) (Nat.le_refl _) (hposition ▸ h.led) (hposition ▸ h.window) (by simp)
      fun i l _ hcleared => absurd hcleared (Nat.not_lt_zero _)
    exact { hcleared with
      followed := always_concat.mpr ⟨h.followed, trivial⟩
      led := by rw [reached_concat]; exact hcleared.led
      since := fun i l _ hcleared => absurd hcleared (Nat.not_lt_zero _) }
  | clear_slot i hpc hi => exact h.clear_slot hpc hi
  | clear_tail i hpc hi =>
    exact h.tail_set (horderly i hpc hi)
      fun slot l hslot => h.since slot l hslot (by rw [hpc]; exact Nat.lt_of_lt_of_le slot.isLt hi)

/-- In a run in which every link is added where the window has room for it and
none is left outside when the window moves, `add_link` finds its slot empty and
`advance_tail` follows only links that were added where it is. -/
theorem Traffic.right_of_orderly {acts : List (TrafficAct ι)}
    (hmeet : StepsMeet Traffic.step Traffic.Orderly (Traffic.new ι capacity) acts)
    (hrun : run Traffic.step (Traffic.new ι capacity) acts = some s) : s.Right := by
  have h : Placed s :=
    run_invariant_of_meet (fun _ _ _ horderly h hstep => h.step horderly hstep) hmeet (placed_new ι capacity) hrun
  exact h.right

/-- A buffer of four slots. -/
def fourSlots : Capacity := ⟨4, by decide, by decide, by decide⟩

/-- Two threads add links that are followed; after the tail has been set a
third one is, and then the links are cleared and the first one is added and
followed again. -/
def orderlyActs (t u : ι) : List (TrafficAct ι) :=
  [.has_space 0, .has_space 2, .add_link_load u ⟨2, 3⟩, .add_link_load t ⟨0, 2⟩, .add_link_store t, .add_link_store u,
    .advance_tail] ++ List.replicate 8 .advance ++
  [.has_space 5, .add_link_load t ⟨5, 6⟩, .add_link_store t, .set_tail 5, .advance_tail] ++ List.replicate 6 .advance ++
  [.has_space 6, .add_link_load u ⟨6, 8⟩, .add_link_store u, .clear_links] ++ List.replicate 5 .clear ++
  [.has_space 0, .add_link_load u ⟨0, 2⟩, .add_link_store u, .advance_tail] ++ List.replicate 6 .advance

theorem right_of_orderly_cleared :
    ∃ s, run Traffic.step (Traffic.new (Fin 2) fourSlots) (orderlyActs 0 1) = some s ∧ s.buf.m_tail = 2 ∧
      s.events = [.added ⟨0, 2⟩, .added ⟨2, 3⟩, .followed 0 2, .followed 2 3, .added ⟨5, 6⟩, .tail_set 5,
        .followed 5 6, .added ⟨6, 8⟩, .cleared, .tail_set 0, .added ⟨0, 2⟩, .followed 0 2] ∧ s.Right := by
  have hends : ((run Traffic.step (Traffic.new (Fin 2) fourSlots) (orderlyActs 0 1)).any fun s =>
      decide (s.buf.m_tail = 2 ∧ s.events = [.added ⟨0, 2⟩, .added ⟨2, 3⟩, .followed 0 2, .followed 2 3,
        .added ⟨5, 6⟩, .tail_set 5, .followed 5 6, .added ⟨6, 8⟩, .cleared, .tail_set 0, .added ⟨0, 2⟩,
        .followed 0 2])) = true := by
    decide +kernel
  have hmeet : StepsMeet Traffic.step Traffic.Orderly (Traffic.new (Fin 2) fourSlots) (orderlyActs 0 1) := by
    decide +kernel
  obtain ⟨s, hrun, hs⟩ := (Option.any_eq_true _ _).mp hends
  obtain ⟨htail, hevents⟩ := of_decide_eq_true hs
  exact ⟨s, hrun, htail, hevents, Traffic.right_of_orderly hmeet hrun⟩

/-- Every slot belongs to a position of the window. -/
theorem exists_inWindow (lo : Nat) (i : Fin capacity.val) :
    ∃ position, InWindow capacity lo position ∧ slot_index capacity position = i := by
  have hpos := capacity.pos
  have hdiv := Nat.div_add_mod lo capacity.val
  have hmod := Nat.mod_lt lo hpos
  have hoffset := Nat.mod_lt (i.val + (capacity.val - lo % capacity.val)) hpos
  refine ⟨lo + (i.val + (capacity.val - lo % capacity.val)) % capacity.val, ⟨by omega, by omega⟩, ?_⟩
  apply Fin.ext
  have hsum : lo + (i.val + (capacity.val - lo % capacity.val)) = i.val + capacity.val * (lo / capacity.val + 1) := by
    rw [Nat.mul_succ]
    omega
  rw [slot_index_val, Nat.add_mod_mod, hsum, Nat.add_mul_mod_self_left, Nat.mod_eq_of_lt i.isLt]

/-- `has_space` says nothing about the slot. Wherever a slot is not empty, it
grants a position of the window at which `add_link` then fails. -/
theorem Traffic.has_space_taken {t : ι} (hfault : s.fault = none) (hidle : s.adding t = none)
    (hfit : s.buf.m_tail + capacity.val < 2 ^ 64) {i : Fin capacity.val} (hi : s.buf.m_links i ≠ 0) :
    ∃ position, InWindow capacity s.buf.m_tail position ∧ slot_index capacity position = i ∧
      ∃ last, run Traffic.step s [.has_space position, .add_link_load t ⟨position, position + 1⟩] = some last ∧
        last.fault = some .slot_not_empty := by
  obtain ⟨position, hwindow, hslot⟩ := exists_inWindow s.buf.m_tail i
  have hspace : s.buf.has_space position = true := by
    rw [LinkBuf.has_space, LinkBuf.tail, u64_of_lt hfit]
    exact decide_eq_true hwindow.2
  have hbound := hwindow.2
  have hload : s.buf.add_link_load position (position + 1) = some .slot_not_empty := by
    have hdistance : u64_sub (position + 1) position ≤ position_max := Nat.le_sub_one_of_lt (u64_lt _)
    rw [LinkBuf.add_link_load, if_neg (by omega), if_neg (not_not.mpr hdistance), hslot, if_pos hi]
  refine ⟨position, hwindow, hslot,
    { s with granted := s.granted ++ [position], fault := some .slot_not_empty }, ?_, rfl⟩
  simp [run, Traffic.step, hfault, hspace, hidle, hload]
  omega

/-- The tail is set while a link is waiting. -/
def set_tail_acts : List (TrafficAct Unit) :=
  [.has_space 0, .add_link_load () ⟨0, 1⟩, .add_link_store (), .set_tail 4, .advance_tail, .advance, .advance, .advance]

theorem set_tail_follows_other_link :
    ¬ ∀ (ι : Type) (_ : DecidableEq ι) (capacity : Capacity) (acts : List (TrafficAct ι)) (s : Traffic ι capacity),
      run Traffic.step (Traffic.new ι capacity) acts = some s → s.Right := by
  intro hright
  have hevents : ((run Traffic.step (Traffic.new Unit fourSlots) set_tail_acts).any
      fun s => decide (s.events = [.added ⟨0, 1⟩, .tail_set 4, .followed 4 5])) = true := by decide
  obtain ⟨s, hrun, hs⟩ := (Option.any_eq_true _ _).mp hevents
  have hfollowed := (hright Unit inferInstance fourSlots set_tail_acts s hrun).followed
  rw [of_decide_eq_true hs] at hfollowed
  obtain ⟨⟨before, after, heq, -⟩, -⟩ := hfollowed [.added ⟨0, 1⟩, .tail_set 4] (.followed 4 5) [] rfl
  have hmem : LinkEvent.added ⟨4, 5⟩ ∈ [.added ⟨0, 1⟩, LinkEvent.tail_set 4] := by
    rw [heq]
    simp
  simp at hmem

end tc_rdma.link_buf
