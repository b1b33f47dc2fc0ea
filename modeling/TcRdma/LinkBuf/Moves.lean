import Mathlib.Data.List.Nodup
import TcRdma.LinkBuf.Ownership

open tc_rdma.machine

namespace tc_rdma.link_buf

variable {ο : Type} [DecidableEq ο] {mem mem' : Arrays} {objs : ο → Option BufObject} {o r : ο} {b c : BufObject}
  {id : Nat} {slots slots' : List Nat} {s next : Objects ο} {act : ObjectAct ο}

/-- The arrays that have slots are the ones that were created and not deleted,
and no array is created twice. -/
structure ArraysOk (mem : Arrays) : Prop where
  holding : ∃ ids, slot_arrays.Holding mem.log ids ∧ ∀ id, id ∈ ids ↔ (mem.slots id).isSome
  fresh : ∀ id, id ∈ slot_arrays.created mem.log → id < mem.next
  once : (slot_arrays.created mem.log).Nodup

theorem arraysOk_empty : ArraysOk .empty where
  holding := ⟨[], slot_arrays.holding_nil, by simp [Arrays.empty]⟩
  fresh := by simp [Arrays.empty, Ledger.created]
  once := List.nodup_nil

theorem created_new_array (mem : Arrays) (values : List Nat) :
    slot_arrays.created (mem.new_array values).log = slot_arrays.created mem.log ++ [mem.next] := by
  simp [Arrays.new_array, Ledger.created, slot_arrays]

theorem created_delete_array (mem : Arrays) (id : Nat) :
    slot_arrays.created (mem.delete_array id).log = slot_arrays.created mem.log := by
  simp [Arrays.delete_array, Ledger.created, slot_arrays]

theorem ArraysOk.slots_next (h : ArraysOk mem) : mem.slots mem.next = none := by
  obtain ⟨ids, hholding, hids⟩ := h.holding
  rw [← Option.not_isSome_iff_eq_none, ← hids]
  intro hmem
  have hcreated : mem.next ∈ slot_arrays.created mem.log :=
    hholding.left.mem_iff.mpr (List.mem_append_right _ hmem)
  exact Nat.lt_irrefl _ (h.fresh _ hcreated)

theorem ArraysOk.new_array (h : ArraysOk mem) (values : List Nat) : ArraysOk (mem.new_array values) := by
  obtain ⟨ids, hholding, hids⟩ := h.holding
  constructor
  · refine ⟨mem.next :: ids, hholding.create rfl, ?_⟩
    intro id
    by_cases hid : id = mem.next
    · simp [hid, Arrays.new_array]
    · simp [hid, Arrays.new_array, hids]
  · intro id hid
    rw [created_new_array, List.mem_append, List.mem_singleton] at hid
    show id < mem.next + 1
    rcases hid with hold | rfl
    · exact Nat.lt_succ_of_lt (h.fresh id hold)
    · exact Nat.lt_succ_self _
  · rw [created_new_array, List.nodup_append]
    refine ⟨h.once, List.nodup_singleton _, ?_⟩
    intro a ha x hx heq
    rw [List.mem_singleton.mp hx] at heq
    exact Nat.ne_of_lt (h.fresh a ha) heq

theorem ArraysOk.delete_array (h : ArraysOk mem) (hslots : mem.slots id = some slots) :
    ArraysOk (mem.delete_array id) := by
  obtain ⟨ids, hholding, hids⟩ := h.holding
  have hmem : id ∈ ids := by
    rw [hids, hslots]
    rfl
  have hnodup : ids.Nodup := (List.nodup_append.mp (hholding.left.nodup_iff.mp h.once)).2.1
  constructor
  · refine ⟨ids.erase id, (hholding.perm (List.perm_cons_erase hmem)).destroy rfl, ?_⟩
    intro other
    rw [hnodup.mem_erase_iff, hids]
    by_cases hother : other = id
    · simp [hother, Arrays.delete_array]
    · simp [hother, Arrays.delete_array]
  · rw [created_delete_array]
    exact h.fresh
  · rw [created_delete_array]
    exact h.once

theorem ArraysOk.store (h : ArraysOk mem) (hslots : mem.slots id = some slots) (slots' : List Nat) :
    ArraysOk { mem with slots := Function.update mem.slots id (some slots') } := by
  obtain ⟨ids, hholding, hids⟩ := h.holding
  refine ⟨⟨ids, hholding, ?_⟩, h.fresh, h.once⟩
  intro other
  by_cases hother : other = id
  · simp [hother, hids, hslots]
  · simp [hother, hids]

/-- An array that was created has been deleted once if it has no slots any
more, and not at all otherwise. -/
theorem ArraysOk.count_destroyed (h : ArraysOk mem) (hcreated : id ∈ slot_arrays.created mem.log) :
    (slot_arrays.destroyed mem.log).count id = if (mem.slots id).isSome then 0 else 1 := by
  obtain ⟨ids, hholding, hids⟩ := h.holding
  have hcount := hholding.left.count_eq id
  rw [List.count_eq_one_of_mem h.once hcreated, List.count_append] at hcount
  by_cases hlive : (mem.slots id).isSome
  · have hmem := List.count_pos_iff.mpr ((hids id).mpr hlive)
    rw [if_pos hlive]
    omega
  · have hzero : ids.count id = 0 := List.count_eq_zero.mpr fun hmem => hlive ((hids id).mp hmem)
    rw [if_neg hlive]
    omega

/-- Every array that exists has one owner, whose capacity is its size. -/
structure Owned (objs : ο → Option BufObject) (mem : Arrays) : Prop where
  arrays : ArraysOk mem
  array : ∀ o b id, objs o = some b → b.m_links = some id →
    ∃ slots, mem.slots id = some slots ∧ slots.length = b.m_capacity
  unique : ∀ o o' b b' id, objs o = some b → b.m_links = some id → objs o' = some b' → b'.m_links = some id → o = o'
  owner : ∀ id slots, mem.slots id = some slots → ∃ o b, objs o = some b ∧ b.m_links = some id

/-- There is no such object, or it has no array. -/
def Idle (b? : Option BufObject) : Prop := ∀ b, b? = some b → b.m_links = none

theorem idle_none : Idle none := by
  intro b hb
  cases hb

theorem idle_update {objs : ο → Option BufObject} {o : ο} {b : BufObject} (hlinks : b.m_links = none) :
    Idle (Function.update objs o (some b) o) := by
  intro c hc
  rw [Function.update_self] at hc
  cases hc
  exact hlinks

theorem owned_new (ο : Type) : Owned (fun _ : ο => none) .empty where
  arrays := arraysOk_empty
  array := by
    intro o b id hb
    cases hb
  unique := by
    intro o o' b b' id hb
    cases hb
  owner := by
    intro id slots hslots
    cases hslots

theorem update_eq_some {v : Option BufObject} (hb : Function.update objs o v r = some b) :
    (r = o ∧ v = some b) ∨ (r ≠ o ∧ objs r = some b) := by
  by_cases hr : r = o
  · subst hr
    rw [Function.update_self] at hb
    exact .inl ⟨rfl, hb⟩
  · rw [Function.update_of_ne hr] at hb
    exact .inr ⟨hr, hb⟩

/-- An object without an array may be replaced by another one, or by none. -/
theorem Owned.put_idle {v : Option BufObject} (h : Owned objs mem) (ho : Idle (objs o)) (hv : Idle v) :
    Owned (Function.update objs o v) mem := by
  constructor
  · exact h.arrays
  · intro q b id hb hid
    rcases update_eq_some hb with ⟨-, rfl⟩ | ⟨-, hb⟩
    · rw [hv b rfl] at hid
      cases hid
    · exact h.array q b id hb hid
  · intro q q' b b' id hb hid hb' hid'
    rcases update_eq_some hb with ⟨-, rfl⟩ | ⟨-, hb⟩
    · rw [hv b rfl] at hid
      cases hid
    · rcases update_eq_some hb' with ⟨-, rfl⟩ | ⟨-, hb'⟩
      · rw [hv b' rfl] at hid'
        cases hid'
      · exact h.unique q q' b b' id hb hid hb' hid'
  · intro id slots hslots
    obtain ⟨q, b, hb, hid⟩ := h.owner id slots hslots
    refine ⟨q, b, ?_, hid⟩
    rw [Function.update_of_ne, hb]
    rintro rfl
    rw [ho b hb] at hid
    cases hid

/-- An object keeps its array whatever happens to its tail. -/
theorem Owned.put_same (h : Owned objs mem) (hb : objs o = some b) (hlinks : c.m_links = b.m_links)
    (hcapacity : c.m_capacity = b.m_capacity) : Owned (Function.update objs o (some c)) mem := by
  have hold : ∀ q d id, Function.update objs o (some c) q = some d → d.m_links = some id →
      ∃ d', objs q = some d' ∧ d'.m_links = some id ∧ d'.m_capacity = d.m_capacity := by
    intro q d id hd hid
    rcases update_eq_some hd with ⟨rfl, hcd⟩ | ⟨-, hd⟩
    · cases hcd
      exact ⟨b, hb, hlinks ▸ hid, hcapacity.symm⟩
    · exact ⟨d, hd, hid, rfl⟩
  constructor
  · exact h.arrays
  · intro q d id hd hid
    obtain ⟨d', hd', hid', hsize⟩ := hold q d id hd hid
    rw [← hsize]
    exact h.array q d' id hd' hid'
  · intro q q' d d' id hd hid hd' hid'
    obtain ⟨e, he, hid, -⟩ := hold q d id hd hid
    obtain ⟨e', he', hid', -⟩ := hold q' d' id hd' hid'
    exact h.unique q q' e e' id he hid he' hid'
  · intro id slots hslots
    obtain ⟨q, d, hd, hid⟩ := h.owner id slots hslots
    by_cases hq : q = o
    · subst hq
      rw [hb] at hd
      cases hd
      exact ⟨q, c, Function.update_self _ _ _, hlinks.trans hid⟩
    · exact ⟨q, d, by rw [Function.update_of_ne hq, hd], hid⟩

/-- A new array goes to an object that has none. -/
theorem Owned.new_array (h : Owned objs mem) (ho : Idle (objs o)) (hlinks : b.m_links = some mem.next)
    (hsize : slots.length = b.m_capacity) : Owned (Function.update objs o (some b)) (mem.new_array slots) := by
  have hnext := h.arrays.slots_next
  have hkept : ∀ id, id ≠ mem.next → (mem.new_array slots).slots id = mem.slots id := fun id hid =>
    Function.update_of_ne hid _ _
  have hne : ∀ q d id, objs q = some d → d.m_links = some id → id ≠ mem.next := by
    intro q d id hd hid heq
    obtain ⟨old, hold, -⟩ := h.array q d id hd hid
    rw [heq, hnext] at hold
    cases hold
  constructor
  · exact h.arrays.new_array slots
  · intro q d id hd hid
    rcases update_eq_some hd with ⟨-, hbd⟩ | ⟨-, hd⟩
    · cases hbd
      rw [hlinks] at hid
      cases hid
      exact ⟨slots, Function.update_self _ _ _, hsize⟩
    · rw [hkept id (hne q d id hd hid)]
      exact h.array q d id hd hid
  · intro q q' d d' id hd hid hd' hid'
    rcases update_eq_some hd with ⟨hq, hbd⟩ | ⟨-, hd⟩
    · cases hbd
      rw [hlinks] at hid
      cases hid
      rcases update_eq_some hd' with ⟨hq', -⟩ | ⟨-, hd'⟩
      · rw [hq, hq']
      · exact absurd rfl (hne q' d' _ hd' hid')
    · rcases update_eq_some hd' with ⟨-, hbd'⟩ | ⟨-, hd'⟩
      · cases hbd'
        rw [hlinks] at hid'
        cases hid'
        exact absurd rfl (hne q d _ hd hid)
      · exact h.unique q q' d d' id hd hid hd' hid'
  · intro id values hvalues
    by_cases hid : id = mem.next
    · exact ⟨o, b, Function.update_self _ _ _, hid ▸ hlinks⟩
    · rw [hkept id hid] at hvalues
      obtain ⟨q, d, hd, hdid⟩ := h.owner id values hvalues
      refine ⟨q, d, ?_, hdid⟩
      rw [Function.update_of_ne, hd]
      rintro rfl
      rw [ho d hd] at hdid
      cases hdid

/-- Deleting its array leaves an object without one. -/
theorem Owned.delete_array (h : Owned objs mem) (hb : objs o = some b) (hid : b.m_links = some id)
    (hc : c.m_links = none) : Owned (Function.update objs o (some c)) (mem.delete_array id) := by
  obtain ⟨slots, hslots, -⟩ := h.array o b id hb hid
  have hkept : ∀ other, other ≠ id → (mem.delete_array id).slots other = mem.slots other := fun other hother =>
    Function.update_of_ne hother _ _
  have hold : ∀ q d other, Function.update objs o (some c) q = some d → d.m_links = some other →
      objs q = some d ∧ other ≠ id := by
    intro q d other hd hother
    rcases update_eq_some hd with ⟨-, hcd⟩ | ⟨hq, hd⟩
    · cases hcd
      rw [hc] at hother
      cases hother
    · refine ⟨hd, ?_⟩
      rintro rfl
      exact hq (h.unique q o d b other hd hother hb hid)
  constructor
  · exact h.arrays.delete_array hslots
  · intro q d other hd hother
    obtain ⟨hd, hne⟩ := hold q d other hd hother
    rw [hkept other hne]
    exact h.array q d other hd hother
  · intro q q' d d' other hd hother hd' hother'
    exact h.unique q q' d d' other (hold q d other hd hother).1 hother (hold q' d' other hd' hother').1 hother'
  · intro other values hvalues
    have hne : other ≠ id := by
      rintro rfl
      have hnone : (mem.delete_array other).slots other = none := Function.update_self _ _ _
      rw [hnone] at hvalues
      cases hvalues
    rw [hkept other hne] at hvalues
    obtain ⟨q, d, hd, hother⟩ := h.owner other values hvalues
    refine ⟨q, d, ?_, hother⟩
    rw [Function.update_of_ne, hd]
    rintro rfl
    rw [hb] at hd
    cases hd
    rw [hid] at hother
    cases hother
    exact hne rfl

/-- An array changes its owner. -/
theorem Owned.hand_over (h : Owned objs mem) (hne : o ≠ r) (ho : Idle (objs o)) (hb : objs r = some b)
    (hlinks : c.m_links = b.m_links) (hcapacity : c.m_capacity = b.m_capacity) {d : BufObject}
    (hd : d.m_links = none) :
    Owned (Function.update (Function.update objs o (some c)) r (some d)) mem := by
  have hold : ∀ q e id, Function.update (Function.update objs o (some c)) r (some d) q = some e →
      e.m_links = some id → (q = o ∧ b.m_links = some id ∧ e.m_capacity = b.m_capacity) ∨
        (q ≠ o ∧ q ≠ r ∧ objs q = some e) := by
    intro q e id he hid
    rcases update_eq_some he with ⟨-, hde⟩ | ⟨hqr, he⟩
    · cases hde
      rw [hd] at hid
      cases hid
    · rcases update_eq_some he with ⟨hq, hce⟩ | ⟨hqo, he⟩
      · cases hce
        exact .inl ⟨hq, hlinks ▸ hid, hcapacity⟩
      · exact .inr ⟨hqo, hqr, he⟩
  constructor
  · exact h.arrays
  · intro q e id he hid
    rcases hold q e id he hid with ⟨-, hbid, hsize⟩ | ⟨-, -, he⟩
    · rw [hsize]
      exact h.array r b id hb hbid
    · exact h.array q e id he hid
  · intro q q' e e' id he hid he' hid'
    rcases hold q e id he hid with ⟨hq, hbid, -⟩ | ⟨-, hqr, he⟩
    · rcases hold q' e' id he' hid' with ⟨hq', -, -⟩ | ⟨-, hqr', he'⟩
      · rw [hq, hq']
      · exact absurd (h.unique q' r e' b id he' hid' hb hbid) hqr'
    · rcases hold q' e' id he' hid' with ⟨-, hbid, -⟩ | ⟨-, -, he'⟩
      · exact absurd (h.unique q r e b id he hid hb hbid) hqr
      · exact h.unique q q' e e' id he hid he' hid'
  · intro id slots hslots
    obtain ⟨q, e, he, hid⟩ := h.owner id slots hslots
    by_cases hq : q = r
    · subst hq
      rw [hb] at he
      cases he
      refine ⟨o, c, ?_, hlinks.trans hid⟩
      rw [Function.update_of_ne hne, Function.update_self]
    · refine ⟨q, e, ?_, hid⟩
      rw [Function.update_of_ne hq, Function.update_of_ne, he]
      rintro rfl
      rw [ho e he] at hid
      cases hid

omit [DecidableEq ο] in
theorem Owned.store (h : Owned objs mem) (hslots : mem.slots id = some slots) (hlength : slots'.length = slots.length) :
    Owned objs { mem with slots := Function.update mem.slots id (some slots') } := by
  constructor
  · exact h.arrays.store hslots slots'
  · intro q b other hb hother
    obtain ⟨values, hvalues, hsize⟩ := h.array q b other hb hother
    by_cases hid : other = id
    · subst hid
      rw [hslots] at hvalues
      cases hvalues
      exact ⟨slots', Function.update_self _ _ _, hlength.trans hsize⟩
    · exact ⟨values, (Function.update_of_ne hid _ _).trans hvalues, hsize⟩
  · exact h.unique
  · intro other values hvalues
    by_cases hid : other = id
    · exact h.owner other slots (hid ▸ hslots)
    · exact h.owner other values ((Function.update_of_ne hid _ _).symm.trans hvalues)

/-- `free` finds the array of an object as long as objects own their arrays. -/
theorem Owned.free (h : Owned objs mem) (hb : objs o = some b) :
    ∃ b' mem', b.free mem = .ok (b', mem') ∧ b'.m_links = none ∧ b'.m_capacity = b.m_capacity ∧
      b'.m_tail = b.m_tail ∧ Owned (Function.update objs o (some b')) mem' ∧
      ∀ id, b.m_links ≠ some id → mem'.slots id = mem.slots id := by
  unfold BufObject.free
  cases hlinks : b.m_links with
  | none => exact ⟨b, mem, rfl, hlinks, rfl, rfl, h.put_same hb rfl rfl, fun _ _ => rfl⟩
  | some id =>
    obtain ⟨slots, hslots, -⟩ := h.array o b id hb hlinks
    simp only [hslots]
    refine ⟨_, _, rfl, rfl, rfl, rfl, h.delete_array hb hlinks rfl, ?_⟩
    intro other hother
    apply Function.update_of_ne
    rintro rfl
    exact hother rfl

omit [DecidableEq ο] in
/-- A store that succeeds changes a slot, but neither the size of an array nor
what belongs to whom. -/
theorem Owned.store_slot {index value : Nat} (h : Owned objs mem) (hstore : b.store_slot mem index value = .ok mem') :
    Owned objs mem' := by
  unfold BufObject.store_slot at hstore
  split at hstore
  · cases hstore
  · split at hstore
    · cases hstore
    · rename_i hslots
      split at hstore
      · cases hstore
        exact h.store hslots List.length_set
      · cases hstore

omit [DecidableEq ο] in
theorem Owned.clear_slots {i n : Nat} (h : Owned objs mem) (hclear : b.clear_slots mem i n = .ok mem') :
    Owned objs mem' := by
  induction n generalizing i mem with
  | zero =>
    cases hclear
    exact h
  | succ n ih =>
    rw [BufObject.clear_slots] at hclear
    split at hclear
    · cases hclear
    · rename_i hstore
      exact ih (h.store_slot hstore) hclear

/-- What a move makes of the objects: the target has the members that the
source had, and the source has no array any more. -/
structure Moved (s : Objects ο) (o r : ο) (rhs : BufObject) (next : Objects ο) : Prop where
  owned : Owned next.objs next.mem
  fault : next.fault = s.fault
  source : ∃ d, next.objs r = some d ∧ d.m_links = none ∧ d.m_capacity = rhs.m_capacity ∧ d.m_tail = rhs.m_tail
  target : o ≠ r → next.objs o = some rhs
  others : ∀ q, q ≠ o → q ≠ r → next.objs q = s.objs q
  slots : o ≠ r → rhs.m_links.bind next.mem.slots = rhs.m_links.bind s.mem.slots

theorem Owned.move_construct {rhs : BufObject} (h : Owned s.objs s.mem) (ho : Idle (s.objs o)) (hne : o ≠ r)
    (hrhs : s.objs r = some rhs) : Moved s o r rhs (s.move_construct o r rhs) := by
  constructor
  · exact h.hand_over hne ho hrhs rfl rfl rfl
  · rfl
  · exact ⟨_, Function.update_self _ _ _, rfl, rfl, rfl⟩
  · intro _
    exact (Function.update_of_ne hne _ _).trans (Function.update_self _ _ _)
  · intro q hqo hqr
    exact (Function.update_of_ne hqr _ _).trans (Function.update_of_ne hqo _ _)
  · intro _
    rfl

/-- The target of an assignment gives its own array back before it takes over
the other one. When both are the same object, nothing is left to take over. -/
theorem Owned.move_assign {self rhs : BufObject} (h : Owned s.objs s.mem) (hself : s.objs o = some self)
    (hrhs : s.objs r = some rhs) : ∃ next, s.move_assign o r self = some next ∧ Moved s o r rhs next := by
  obtain ⟨freed, mem, hfree, hlinks, hcapacity, htail, howned, hslots⟩ := h.free hself
  by_cases hne : o = r
  · subst hne
    rw [hself] at hrhs
    cases hrhs
    have hsame : (Function.update s.objs o (some freed)) o = some freed := Function.update_self _ _ _
    refine ⟨_, by simp only [Objects.move_assign, hfree, hsame, Option.map_some]; rfl, ?_⟩
    constructor
    · rw [Objects.move_construct]
      refine (howned.put_same hsame rfl rfl).put_same (Function.update_self _ _ _) ?_ rfl
      exact hlinks.symm
    · rfl
    · exact ⟨_, Function.update_self _ _ _, rfl, hcapacity, htail⟩
    · intro hself
      exact absurd rfl hself
    · intro q hq _
      exact (Function.update_of_ne hq _ _).trans ((Function.update_of_ne hq _ _).trans (Function.update_of_ne hq _ _))
    · intro hself
      exact absurd rfl hself
  · have hother : (Function.update s.objs o (some freed)) r = some rhs := by
      rw [Function.update_of_ne (Ne.symm hne), hrhs]
    have hmoved := Owned.move_construct (s := { s with objs := Function.update s.objs o (some freed), mem := mem })
      howned (idle_update hlinks) hne hother
    refine ⟨_, by simp only [Objects.move_assign, hfree, hother, Option.map_some]; rfl, ?_⟩
    constructor
    · exact hmoved.owned
    · exact hmoved.fault
    · exact hmoved.source
    · exact hmoved.target
    · intro q hqo hqr
      rw [hmoved.others q hqo hqr]
      exact Function.update_of_ne hqo _ _
    · intro _
      cases hid : rhs.m_links with
      | none => rfl
      | some id =>
        apply hslots
        intro hsame
        exact hne (h.unique o r self rhs id hself hsame hrhs hid)

theorem construct_capacity (mem : Arrays) (capacity : Capacity) :
    BufObject.construct mem capacity.val =
      .ok ({ m_capacity := capacity.val, m_links := some mem.next, m_tail := 0 },
        mem.new_array (List.replicate capacity.val 0)) := by
  rw [BufObject.construct, if_neg (Nat.ne_of_gt capacity.pos), if_neg (not_not.mpr capacity.pow2)]

/-- The operation uses one object, and neither makes, moves nor ends it. -/
def ObjectAct.Uses : ObjectAct ο → Prop
  | .store _ _ _ => True
  | .set_tail _ _ => True
  | .clear_links _ => True
  | _ => False

/-- What a step can be: a construction, a move, the end of an object, or a use,
which leaves the object its array and its capacity or goes wrong. -/
inductive ObjectMove (s : Objects ο) : ObjectAct ο → Objects ο → Prop where
  | construct (o : ο) (capacity : Capacity) (ho : s.objs o = none) :
      ObjectMove s (.construct o capacity)
        { s with
          objs := Function.update s.objs o (some ⟨capacity.val, some s.mem.next, 0⟩)
          mem := s.mem.new_array (List.replicate capacity.val 0) }
  | construct_default (o : ο) (ho : s.objs o = none) :
      ObjectMove s (.construct_default o) { s with objs := Function.update s.objs o (some ⟨0, none, 0⟩) }
  | move_construct (o r : ο) (rhs : BufObject) (ho : s.objs o = none) (hrhs : s.objs r = some rhs) :
      ObjectMove s (.move_construct o r) (s.move_construct o r rhs)
  | move_assign (o r : ο) (self rhs : BufObject) (hself : s.objs o = some self) (hrhs : s.objs r = some rhs)
      (next : Objects ο) (hmove : s.move_assign o r self = some next) : ObjectMove s (.move_assign o r) next
  | destroy (o : ο) (self b : BufObject) (mem : Arrays) (hself : s.objs o = some self)
      (hfree : self.free s.mem = .ok (b, mem)) :
      ObjectMove s (.destroy o) { s with objs := Function.update s.objs o none, mem := mem }
  | destroy_fault (o : ο) (self : BufObject) (fault : ObjectFault) (hself : s.objs o = some self)
      (hfree : self.free s.mem = .error fault) : ObjectMove s (.destroy o) { s with fault := some fault }
  | use (act : ObjectAct ο) (hact : act.Uses) (o : ο) (self b : BufObject) (mem : Arrays)
      (hself : s.objs o = some self) (hlinks : b.m_links = self.m_links) (hcapacity : b.m_capacity = self.m_capacity)
      (howned : Owned s.objs s.mem → Owned s.objs mem) :
      ObjectMove s act { s with objs := Function.update s.objs o (some b), mem := mem }
  | misuse (act : ObjectAct ο) (hact : act.Uses) (o : ο) (self : BufObject) (hself : s.objs o = some self)
      (fault : ObjectFault)
      (hfault : (∃ position value, self.m_capacity ≠ 0 ∧
          self.store_slot s.mem (self.slot_index position) value = .error fault) ∨
        self.clear_links s.mem = .error fault) : ObjectMove s act { s with fault := some fault }

theorem Objects.step_move (hstep : s.step act = some next) : s.fault = none ∧ ObjectMove s act next := by
  unfold Objects.step at hstep
  split at hstep
  · cases hstep
  · rename_i o capacity hfault
    refine ⟨hfault, ?_⟩
    split at hstep
    · cases hstep
    · rename_i ho
      rw [construct_capacity] at hstep
      cases hstep
      exact .construct o capacity ho
  · rename_i o hfault
    refine ⟨hfault, ?_⟩
    split at hstep
    · cases hstep
    · rename_i ho
      cases hstep
      exact .construct_default o ho
  · rename_i o r hfault
    refine ⟨hfault, ?_⟩
    split at hstep
    · rename_i rhs ho hrhs
      cases hstep
      exact .move_construct o r rhs ho hrhs
    · cases hstep
  · rename_i o r hfault
    refine ⟨hfault, ?_⟩
    split at hstep
    · rename_i self rhs hself hrhs
      exact .move_assign o r self rhs hself hrhs next hstep
    · cases hstep
  · rename_i o hfault
    refine ⟨hfault, ?_⟩
    split at hstep
    · cases hstep
    · rename_i self hself
      split at hstep
      · rename_i fault hfree
        cases hstep
        exact .destroy_fault o self fault hself hfree
      · rename_i b mem hfree
        cases hstep
        exact .destroy o self b mem hself hfree
  · rename_i o position value hfault
    refine ⟨hfault, ?_⟩
    split at hstep
    · cases hstep
    · rename_i self hself
      split at hstep
      · cases hstep
      · rename_i hcapacity
        cases hstore : self.store_slot s.mem (self.slot_index position) value with
        | error fault =>
          rw [hstore] at hstep
          cases hstep
          exact .misuse (.store o position value) trivial o self hself fault (.inl ⟨position, value, hcapacity, hstore⟩)
        | ok mem =>
          rw [hstore] at hstep
          cases hstep
          exact .use (.store o position value) trivial o self self mem hself rfl rfl fun h => h.store_slot hstore
  · rename_i o position hfault
    refine ⟨hfault, ?_⟩
    obtain ⟨self, hself, rfl⟩ := Option.map_eq_some_iff.mp hstep
    exact .use (.set_tail o position) trivial o self { self with m_tail := position } s.mem hself rfl rfl id
  · rename_i o hfault
    refine ⟨hfault, ?_⟩
    obtain ⟨self, hself, rfl⟩ := Option.map_eq_some_iff.mp hstep
    cases hclear : self.clear_links s.mem with
    | error fault => exact .misuse (.clear_links o) trivial o self hself fault (.inr hclear)
    | ok result =>
      unfold BufObject.clear_links at hclear
      split at hclear
      · cases hclear
      · rename_i mem hslots
        cases hclear
        exact .use (.clear_links o) trivial o self { self with m_tail := 0 } mem hself rfl rfl fun h =>
          h.clear_slots hslots

/-- Whatever is done with objects, each array keeps exactly one owner until it
is deleted. -/
theorem Objects.owned_step (h : Owned s.objs s.mem) (hstep : s.step act = some next) :
    Owned next.objs next.mem := by
  cases (Objects.step_move hstep).2 with
  | construct o capacity ho =>
    exact h.new_array (by rw [ho]; exact idle_none) rfl List.length_replicate
  | construct_default o ho =>
    apply h.put_idle (by rw [ho]; exact idle_none)
    intro b hb
    cases hb
    rfl
  | move_construct o r rhs ho hrhs =>
    have hne : o ≠ r := by
      rintro rfl
      rw [ho] at hrhs
      cases hrhs
    exact (h.move_construct (by rw [ho]; exact idle_none) hne hrhs).owned
  | move_assign o r self rhs hself hrhs _ hmove =>
    obtain ⟨next', hmove', hmoved⟩ := h.move_assign hself hrhs
    rw [hmove] at hmove'
    cases hmove'
    exact hmoved.owned
  | destroy o self b mem hself hfree =>
    obtain ⟨b', mem', hfree', hlinks, -, -, howned, -⟩ := h.free hself
    rw [hfree] at hfree'
    cases hfree'
    have hgone := howned.put_idle (idle_update hlinks) idle_none
    rw [Function.update_idem] at hgone
    exact hgone
  | destroy_fault o self fault hself hfree => exact h
  | use _ hact o self b mem hself hlinks hcapacity howned => exact (howned h).put_same hself hlinks hcapacity
  | misuse _ hact o self hself fault hfault => exact h

end tc_rdma.link_buf
