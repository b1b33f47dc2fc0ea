import TcRdma.EnvBasic.ByteOrder
import TcRdma.Machine.Tiling

open tc_rdma.machine tc_rdma.env_basic

namespace tc_rdma.rdma_com

/-- `RDMA_MESSAGE_MAGIC`. -/
def RDMA_MESSAGE_MAGIC : UInt32 := 491237815

/-- `RdmaMessage`. The field `rdma_pck` is the memory that the pointer of this
name points to, and `data` is a position in it. -/
structure RdmaMessage where
  data : Nat
  rdma_pck : List UInt8
  length : UInt32
  pck_len : UInt32
  deriving DecidableEq, Repr

/-- The constructor `RdmaMessage(l, c_l)`, which does not use `c_l`. A call of
`malloc` returns a buffer of the requested size, with any bytes in it; the
result is `none` if something is written outside this buffer. -/
def RdmaMessage.new (malloc : (size : Nat) → Vector UInt8 size) (l : UInt32) : Option RdmaMessage := do
  let rdma_pck := (malloc (l + 12).toNat).toList
  let rdma_pck ← m_write_4 rdma_pck 0 RDMA_MESSAGE_MAGIC.toUInt64
  let rdma_pck ← m_write_4 rdma_pck 4 l.toUInt64
  -- `RDMA_MESSAGE_HEAD_LEN` is `4 + 4` without parentheses, and the sum is one of pointers
  let rdma_pck ← m_write_4 rdma_pck (4 + 4 + l.toNat) RDMA_MESSAGE_MAGIC.toUInt64
  return { data := 8, rdma_pck, length := l, pck_len := l + 12 }

/-- The assignment `data[i] = v`. -/
def RdmaMessage.write_data (self : RdmaMessage) (i : Nat) (v : UInt8) : Option RdmaMessage :=
  (store self.rdma_pck (self.data + i) v).map fun rdma_pck => { self with rdma_pck }

/-- Assignments to the payload, one after the other. -/
def RdmaMessage.write_all (self : RdmaMessage) : List (Nat × UInt8) → Option RdmaMessage
  | [] => some self
  | (i, v) :: writes => (self.write_data i v).bind fun next => next.write_all writes

/-- The parts of a packet: magic, length, payload and magic. -/
def RdmaMessage.areas (self : RdmaMessage) : List Interval :=
  [⟨0, 4⟩, ⟨4, 8⟩, ⟨self.data, self.data + self.length.toNat⟩, ⟨8 + self.length.toNat, 12 + self.length.toNat⟩]

/-- The bytes of a packet with a given payload. -/
def frame (payload : List UInt8) : List UInt8 :=
  be_bytes 4 RDMA_MESSAGE_MAGIC.toNat ++ be_bytes 4 payload.length ++ payload ++ be_bytes 4 RDMA_MESSAGE_MAGIC.toNat

@[simp] theorem length_frame (payload : List UInt8) : (frame payload).length = payload.length + 12 := by
  simp [frame]
  omega

/-- Nothing in a payload can make it look like another one. -/
theorem frame_injective {payload payload' : List UInt8} (h : frame payload = frame payload') :
    payload = payload' := by
  have hlength := congrArg List.length h
  rw [length_frame, length_frame] at hlength
  have hlengths : payload.length = payload'.length := by omega
  rw [frame, frame, hlengths] at h
  exact List.append_cancel_left (List.append_cancel_right h)

/-- The message holds the packet of the payload. -/
structure RdmaMessage.Holds (m : RdmaMessage) (l : UInt32) (payload : List UInt8) : Prop where
  data : m.data = 8
  length : m.length = l
  rdma_pck : m.rdma_pck = frame payload
  payload_length : payload.length = l.toNat
  pck_len : m.pck_len.toNat = l.toNat + 12

/-- The bytes that `malloc` leaves where the payload is. -/
def fresh_payload (malloc : (size : Nat) → Vector UInt8 size) (l : UInt32) : List UInt8 :=
  ((malloc (l + 12).toNat).toList.drop 8).take l.toNat

variable {malloc malloc' : (size : Nat) → Vector UInt8 size} {l l' : UInt32} {m m' : RdmaMessage}
  {payload : List UInt8} {writes writes' : List (Nat × UInt8)}

theorem pck_size (hl : l.toNat + 12 < 2 ^ 32) : (l + 12).toNat = l.toNat + 12 := by
  rw [UInt32.toNat_add]
  exact Nat.mod_eq_of_lt hl

theorem pck_size_of_le (hl : 2 ^ 32 ≤ l.toNat + 12) : (l + 12).toNat + 2 ^ 32 = l.toNat + 12 := by
  have hlt := l.toNat_lt
  rw [UInt32.toNat_add]
  simp only [UInt32.reduceToNat]
  omega

theorem exists_parts (b : List UInt8) {n : Nat} (hlength : b.length = n + 12) :
    ∃ magic length trailer, b = magic ++ length ++ (b.drop 8).take n ++ trailer ∧ magic.length = 4 ∧
      length.length = 4 ∧ trailer.length = 4 := by
  refine ⟨b.take 4, (b.drop 4).take 4, b.drop (8 + n), ?_, ?_, ?_, ?_⟩
  · have htail : (b.drop 8).take n ++ b.drop (8 + n) = b.drop 8 := by
      rw [← List.drop_drop, List.take_append_drop]
    have hmid : (b.drop 4).take 4 ++ b.drop 8 = b.drop 4 := by
      rw [← List.drop_drop (i := 4) (j := 4), List.take_append_drop]
    rw [List.append_assoc, htail, List.append_assoc, hmid, List.take_append_drop]
  · rw [List.length_take]
    omega
  · rw [List.length_take, List.length_drop]
    omega
  · rw [List.length_drop]
    omega

/-- When its size fits into 32 bits, the constructor completes the packet. -/
theorem RdmaMessage.new_holds (malloc : (size : Nat) → Vector UInt8 size) (hl : l.toNat + 12 < 2 ^ 32) :
    ∃ m, RdmaMessage.new malloc l = some m ∧ m.Holds l (fresh_payload malloc l) := by
  have hsize := pck_size hl
  have hlength : (malloc (l + 12).toNat).toList.length = l.toNat + 12 := by
    rw [Vector.length_toList, hsize]
  have hpayload : (fresh_payload malloc l).length = l.toNat := by
    rw [fresh_payload, List.length_take, List.length_drop, hlength]
    omega
  obtain ⟨magic, length, trailer, hparts, hmagic, hlen, htrailer⟩ := exists_parts _ hlength
  change (malloc (l + 12).toNat).toList = magic ++ length ++ fresh_payload malloc l ++ trailer at hparts
  have hfirst : m_write_4 (magic ++ length ++ fresh_payload malloc l ++ trailer) 0 RDMA_MESSAGE_MAGIC.toUInt64 =
      some (be_bytes 4 RDMA_MESSAGE_MAGIC.toNat ++ length ++ (fresh_payload malloc l ++ trailer)) := by
    rw [List.append_assoc, List.append_assoc, ← List.nil_append magic, m_write_4_middle hmagic List.length_nil]
    simp
  have hsecond : m_write_4 (be_bytes 4 RDMA_MESSAGE_MAGIC.toNat ++ length ++ (fresh_payload malloc l ++ trailer)) 4
      l.toUInt64 = some (be_bytes 4 RDMA_MESSAGE_MAGIC.toNat ++ be_bytes 4 l.toNat ++
        (fresh_payload malloc l ++ trailer)) := by
    rw [m_write_4_middle hlen (be_bytes_length _ _), UInt32.toNat_toUInt64]
  have hthird : m_write_4 (be_bytes 4 RDMA_MESSAGE_MAGIC.toNat ++ be_bytes 4 l.toNat ++
        (fresh_payload malloc l ++ trailer)) (4 + 4 + l.toNat) RDMA_MESSAGE_MAGIC.toUInt64 =
      some (frame (fresh_payload malloc l)) := by
    rw [← List.append_assoc, ← List.append_nil trailer, ← List.append_assoc, m_write_4_middle htrailer]
    · rw [List.append_nil, frame, hpayload, UInt32.toNat_toUInt64]
    · rw [List.length_append, List.length_append, be_bytes_length, be_bytes_length, hpayload]
  refine ⟨⟨8, frame (fresh_payload malloc l), l, l + 12⟩, ?_, ⟨rfl, rfl, rfl, hpayload, hsize⟩⟩
  rw [RdmaMessage.new, hparts]
  simp only [hfirst, hsecond, hthird, Option.bind_eq_bind, Option.bind_some]
  rfl

/-- Otherwise the trailing magic does not fit into the buffer. -/
theorem RdmaMessage.new_eq_none (malloc : (size : Nat) → Vector UInt8 size) (hl : 2 ^ 32 ≤ l.toNat + 12) :
    RdmaMessage.new malloc l = none := by
  have hsize := pck_size_of_le hl
  rw [RdmaMessage.new]
  simp only [m_write_4_eq, Option.bind_eq_bind, Option.bind_eq_none_iff]
  intro b₁ hb₁ b₂ hb₂ b₃ hb₃
  have h₁ := (overwritten_of_stores hb₁).length
  have h₂ := (overwritten_of_stores hb₂).length
  have hnone : stores b₂ (4 + 4 + l.toNat) (be_bytes 4 RDMA_MESSAGE_MAGIC.toUInt64.toNat) = none := by
    refine stores_eq_none.mpr ⟨by simp [be_bytes], ?_⟩
    rw [h₂, h₁, Vector.length_toList, be_bytes_length]
    omega
  rw [hnone] at hb₃
  cases hb₃

theorem RdmaMessage.Holds.write_data (h : m.Holds l payload) {i : Nat} (hi : i < l.toNat) (v : UInt8) :
    ∃ m', m.write_data i v = some m' ∧ m'.Holds l (payload.set i v) := by
  have hstore : store m.rdma_pck (m.data + i) v = some (frame (payload.set i v)) := by
    have hheader : (be_bytes 4 RDMA_MESSAGE_MAGIC.toNat ++ be_bytes 4 payload.length).length = 8 := by
      rw [List.length_append, be_bytes_length, be_bytes_length]
    rw [h.rdma_pck, h.data, frame, ← hheader, store_middle _ _ _ (by rw [h.payload_length]; exact hi), frame,
      List.length_set]
  refine ⟨{ m with rdma_pck := frame (payload.set i v) }, ?_, ?_⟩
  · rw [RdmaMessage.write_data, hstore, Option.map_some]
  · exact ⟨h.data, h.length, rfl, by rw [List.length_set, h.payload_length], h.pck_len⟩

/-- A payload after assignments to some of its bytes. -/
def written (payload : List UInt8) : List (Nat × UInt8) → List UInt8
  | [] => payload
  | (i, v) :: writes => written (payload.set i v) writes

/-- Assignments within the payload leave the rest of the packet as it is. -/
theorem RdmaMessage.Holds.write_all (h : m.Holds l payload) (hwrites : ∀ write ∈ writes, write.1 < l.toNat) :
    ∃ m', m.write_all writes = some m' ∧ m'.Holds l (written payload writes) := by
  induction writes generalizing m payload with
  | nil => exact ⟨m, rfl, h⟩
  | cons write writes ih =>
    obtain ⟨next, hnext, hholds⟩ := h.write_data (hwrites write (by simp)) write.2
    obtain ⟨m', hrest, hholds'⟩ := ih hholds fun other hother => hwrites other (by simp [hother])
    refine ⟨m', ?_, hholds'⟩
    rw [RdmaMessage.write_all, hnext, Option.bind_some]
    exact hrest

/-- The constructor keeps all its writes inside the buffer it asked for, the
size of this buffer and `pck_len` are the size of the packet, and the parts of
the packet are disjoint and lie within it. -/
def RdmaMessage.Contained (malloc : (size : Nat) → Vector UInt8 size) (l : UInt32) : Prop :=
  ∃ m, RdmaMessage.new malloc l = some m ∧ m.rdma_pck.length = l.toNat + 12 ∧
    m.pck_len.toNat = l.toNat + 12 ∧ m.areas.Pairwise (fun a b => ∀ x, a.Has x → ¬ b.Has x) ∧
    ∀ a ∈ m.areas, a.hi ≤ m.pck_len.toNat

theorem RdmaMessage.Holds.areas_disjoint (h : m.Holds l payload) :
    m.areas.Pairwise fun a b => ∀ x, a.Has x → ¬ b.Has x := by
  simp only [RdmaMessage.areas, h.data, h.length, Interval.Has, List.pairwise_cons, List.mem_cons,
    List.not_mem_nil, or_false, forall_eq_or_imp, forall_eq, false_implies, implies_true, List.Pairwise.nil,
    and_true]
  refine ⟨⟨?_, ?_, ?_⟩, ⟨?_, ?_⟩, ?_⟩
  all_goals
    intro x hx hnot
    omega

theorem RdmaMessage.Holds.areas_le (h : m.Holds l payload) : ∀ a ∈ m.areas, a.hi ≤ m.pck_len.toNat := by
  simp only [RdmaMessage.areas, h.data, h.length, h.pck_len, List.mem_cons, List.not_mem_nil, or_false,
    forall_eq_or_imp, forall_eq]
  omega

/-- A message is laid out as it should be exactly when its size fits into the
32 bits in which it is computed. -/
theorem RdmaMessage.contained_iff (malloc : (size : Nat) → Vector UInt8 size) (l : UInt32) :
    RdmaMessage.Contained malloc l ↔ l.toNat + 12 < 2 ^ 32 := by
  constructor
  · rintro ⟨m, hnew, -⟩
    by_contra hnot
    rw [RdmaMessage.new_eq_none malloc (by omega)] at hnew
    cases hnew
  · intro hl
    obtain ⟨m, hnew, hholds⟩ := RdmaMessage.new_holds malloc hl
    refine ⟨m, hnew, ?_, hholds.pck_len, hholds.areas_disjoint, hholds.areas_le⟩
    rw [hholds.rdma_pck, length_frame, hholds.payload_length]

/-- For the length `2 ^ 32 - 12` nothing at all is asked for. -/
theorem RdmaMessage.not_contained_of_wrapped :
    ¬ ∀ (malloc : (size : Nat) → Vector UInt8 size) (l : UInt32), RdmaMessage.Contained malloc l := by
  intro hall
  obtain ⟨m, hnew, -⟩ := hall (fun size => Vector.replicate size 0) 4294967284
  rw [RdmaMessage.new_eq_none _ (by decide)] at hnew
  cases hnew

/-- A message that has been constructed and filled in. -/
def RdmaMessage.build (malloc : (size : Nat) → Vector UInt8 size) (l : UInt32) (writes : List (Nat × UInt8)) :
    Option RdmaMessage :=
  (RdmaMessage.new malloc l).bind fun m => m.write_all writes

theorem RdmaMessage.build_holds (malloc : (size : Nat) → Vector UInt8 size) (hl : l.toNat + 12 < 2 ^ 32)
    (hwrites : ∀ write ∈ writes, write.1 < l.toNat) :
    ∃ m, RdmaMessage.build malloc l writes = some m ∧ m.Holds l (written (fresh_payload malloc l) writes) := by
  obtain ⟨m, hnew, hholds⟩ := RdmaMessage.new_holds malloc hl
  obtain ⟨m', hall, hholds'⟩ := hholds.write_all hwrites
  refine ⟨m', ?_, hholds'⟩
  rw [RdmaMessage.build, hnew, Option.bind_some]
  exact hall

theorem RdmaMessage.Holds.read_magic (h : m.Holds l payload) :
    m_read_4 m.rdma_pck 0 = some RDMA_MESSAGE_MAGIC := by
  rw [h.rdma_pck, frame, List.append_assoc, List.append_assoc]
  exact m_read_4_middle (List.length_nil (α := UInt8)) RDMA_MESSAGE_MAGIC

theorem RdmaMessage.Holds.read_length (h : m.Holds l payload) : m_read_4 m.rdma_pck 4 = some l := by
  rw [h.rdma_pck, frame, h.payload_length, List.append_assoc (_ ++ _)]
  exact m_read_4_middle (be_bytes_length _ _) l

theorem RdmaMessage.Holds.read_trailer (h : m.Holds l payload) :
    m_read_4 m.rdma_pck (8 + l.toNat) = some RDMA_MESSAGE_MAGIC := by
  rw [h.rdma_pck, frame, ← List.append_nil (be_bytes 4 RDMA_MESSAGE_MAGIC.toNat), ← List.append_assoc]
  apply m_read_4_middle
  simp only [List.length_append, List.length_nil, be_bytes_length, h.payload_length]

theorem RdmaMessage.Holds.loads_payload (h : m.Holds l payload) : loads m.rdma_pck 8 l.toNat = some payload := by
  have hheader : (be_bytes 4 RDMA_MESSAGE_MAGIC.toNat ++ be_bytes 4 payload.length).length = 8 := by
    rw [List.length_append, be_bytes_length, be_bytes_length]
  have hloads := loads_middle (be_bytes 4 RDMA_MESSAGE_MAGIC.toNat ++ be_bytes 4 payload.length) payload
    (be_bytes 4 RDMA_MESSAGE_MAGIC.toNat)
  rw [hheader, h.payload_length] at hloads
  rw [h.rdma_pck, frame, h.payload_length]
  exact hloads

/-- However its payload is filled in, a packet reads back as what was put into
it, and packets with the same bytes have the same length and payload. -/
theorem RdmaMessage.build_round_trip (malloc : (size : Nat) → Vector UInt8 size) (l : UInt32)
    (writes : List (Nat × UInt8)) (hl : l.toNat + 12 < 2 ^ 32)
    (hwrites : ∀ write ∈ writes, write.1 < l.toNat) :
    (∃ m n, RdmaMessage.build malloc l writes = some m ∧
      m_read_4 m.rdma_pck 0 = some RDMA_MESSAGE_MAGIC ∧ m_read_4 m.rdma_pck 4 = some n ∧ n = l ∧
      m_read_4 m.rdma_pck (8 + n.toNat) = some RDMA_MESSAGE_MAGIC ∧ m.pck_len.toNat = 12 + n.toNat ∧
      m.rdma_pck.length = m.pck_len.toNat ∧
      loads m.rdma_pck 8 l.toNat = some (written (fresh_payload malloc l) writes)) ∧
    ∀ malloc' l' writes' m m', l'.toNat + 12 < 2 ^ 32 → (∀ write ∈ writes', write.1 < l'.toNat) →
      RdmaMessage.build malloc l writes = some m → RdmaMessage.build malloc' l' writes' = some m' →
      m.rdma_pck = m'.rdma_pck →
      l = l' ∧ written (fresh_payload malloc l) writes = written (fresh_payload malloc' l') writes' := by
  obtain ⟨m, hbuild, hholds⟩ := RdmaMessage.build_holds malloc hl hwrites
  constructor
  · refine ⟨m, l, hbuild, hholds.read_magic, hholds.read_length, rfl, hholds.read_trailer, ?_, ?_,
      hholds.loads_payload⟩
    · rw [hholds.pck_len, Nat.add_comm]
    · rw [hholds.rdma_pck, length_frame, hholds.payload_length, hholds.pck_len]
  · intro malloc' l' writes' m₁ m₂ hl' hwrites' hbuild₁ hbuild₂ hbytes
    obtain ⟨m', hbuild', hholds'⟩ := RdmaMessage.build_holds malloc' hl' hwrites'
    rw [hbuild] at hbuild₁
    rw [hbuild'] at hbuild₂
    cases hbuild₁
    cases hbuild₂
    have hpayload : written (fresh_payload malloc l) writes = written (fresh_payload malloc' l') writes' := by
      apply frame_injective
      rw [← hholds.rdma_pck, ← hholds'.rdma_pck]
      exact hbytes
    refine ⟨UInt32.toNat_inj.mp ?_, hpayload⟩
    rw [← hholds.payload_length, ← hholds'.payload_length, hpayload]

theorem RdmaMessage.build_round_trip_two :
    (∃ m n, RdmaMessage.build (fun size => Vector.replicate size 0) 2 [(1, 9), (0, 3), (1, 8)] = some m ∧
      m_read_4 m.rdma_pck 0 = some RDMA_MESSAGE_MAGIC ∧ m_read_4 m.rdma_pck 4 = some n ∧ n = 2 ∧
      m_read_4 m.rdma_pck (8 + n.toNat) = some RDMA_MESSAGE_MAGIC ∧ m.pck_len.toNat = 12 + n.toNat ∧
      m.rdma_pck.length = m.pck_len.toNat ∧ loads m.rdma_pck 8 2 = some [3, 8]) ∧
    ∀ m m', RdmaMessage.build (fun size => Vector.replicate size 0) 2 [(1, 9), (0, 3), (1, 8)] = some m →
      RdmaMessage.build (fun size => Vector.replicate size 7) 2 [(0, 3), (1, 8)] = some m' →
      m.rdma_pck = m'.rdma_pck → (2 : UInt32) = 2 ∧ [3, 8] = [(3 : UInt8), 8] := by
  obtain ⟨hread, hequal⟩ := RdmaMessage.build_round_trip (fun size => Vector.replicate size 0) 2
    [(1, 9), (0, 3), (1, 8)] (by decide) (by decide)
  exact ⟨hread, fun m m' => hequal (fun size => Vector.replicate size 7) 2 [(0, 3), (1, 8)] m m'
    (by decide) (by decide)⟩

end tc_rdma.rdma_com
