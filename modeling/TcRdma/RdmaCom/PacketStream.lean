import TcRdma.Machine.PrefixCode
import TcRdma.RdmaCom.Message

open tc_rdma.machine tc_rdma.env_basic

namespace tc_rdma.rdma_com

/-- The bytes that fit into a message. -/
def Payload : Type := { bytes : List UInt8 // bytes.length + 12 < 2 ^ 32 }

/-- The length in the header tells where a packet ends, whatever the payload
contains, the magic number included. -/
theorem frame_prefixCode : PrefixCode (fun payload : Payload => frame payload.val) where
  nonempty := by
    intro payload hnil
    have hlength := length_frame payload.val
    rw [hnil, List.length_nil] at hlength
    omega
  begins := by
    intro payload payload' rest rest' heq
    have hbound := payload.property
    have hbound' := payload'.property
    simp only [frame, List.append_assoc] at heq
    have hlengths := (List.append_inj (List.append_cancel_left heq) (by simp)).1
    have hvalues := congrArg be_value hlengths
    rw [be_value_bytes, be_value_bytes, Nat.mod_eq_of_lt (by omega), Nat.mod_eq_of_lt (by omega)] at hvalues
    rw [hvalues] at heq
    have hrest := List.append_cancel_left (List.append_cancel_left heq)
    exact Subtype.ext (List.append_inj hrest hvalues).1

/-- The `pck_len` bytes of the packet. -/
def RdmaMessage.packet (self : RdmaMessage) : List UInt8 := self.rdma_pck.take self.pck_len.toNat

/-- The `length` bytes at `data`. -/
def RdmaMessage.payload (self : RdmaMessage) : Option (List UInt8) := loads self.rdma_pck self.data self.length.toNat

/-- The message has been constructed with a length that leaves room for the
rest of the packet, and filled in inside its payload. -/
def RdmaMessage.Made (self : RdmaMessage) : Prop :=
  ∃ malloc l writes, l.toNat + 12 < 2 ^ 32 ∧ (∀ write ∈ writes, write.1 < l.toNat) ∧
    RdmaMessage.build malloc l writes = some self

variable {m : RdmaMessage} {ms ms' : List RdmaMessage}

theorem RdmaMessage.Made.exists_payload (h : m.Made) :
    ∃ payload : Payload, m.packet = frame payload.val ∧ m.payload = some payload.val := by
  obtain ⟨malloc, l, writes, hl, hwrites, hbuild⟩ := h
  obtain ⟨m', hbuild', hholds⟩ := RdmaMessage.build_holds malloc hl hwrites
  rw [hbuild] at hbuild'
  cases hbuild'
  refine ⟨⟨written (fresh_payload malloc l) writes, ?_⟩, ?_, ?_⟩
  · rw [hholds.payload_length]
    exact hl
  · rw [RdmaMessage.packet, hholds.rdma_pck]
    apply List.take_of_length_le
    rw [length_frame, hholds.payload_length, hholds.pck_len]
  · rw [RdmaMessage.payload, hholds.data, hholds.length]
    exact hholds.loads_payload

theorem exists_payloads (hmade : ∀ m ∈ ms, m.Made) :
    ∃ payloads : List Payload, ms.flatMap RdmaMessage.packet = payloads.flatMap (fun payload => frame payload.val) ∧
      ms.map RdmaMessage.payload = payloads.map (fun payload => some payload.val) := by
  induction ms with
  | nil => exact ⟨[], rfl, rfl⟩
  | cons m ms ih =>
    obtain ⟨payload, hpacket, hpayload⟩ := (hmade m (by simp)).exists_payload
    obtain ⟨payloads, hpackets, hpayloads⟩ := ih fun other hother => hmade other (by simp [hother])
    refine ⟨payload :: payloads, ?_, ?_⟩
    · rw [List.flatMap_cons, List.flatMap_cons, hpacket, hpackets]
    · rw [List.map_cons, List.map_cons, hpayload, hpayloads]

/-- Packets laid one after the other can be told apart, with no separator and
whatever they contain: the bytes of one sequence begin those of another one
exactly when its payloads are the first ones of the other. -/
theorem RdmaMessage.packets_prefix_iff (hmade : ∀ m ∈ ms, m.Made) (hmade' : ∀ m ∈ ms', m.Made) :
    ms.flatMap RdmaMessage.packet <+: ms'.flatMap RdmaMessage.packet ↔
      ms.map RdmaMessage.payload <+: ms'.map RdmaMessage.payload := by
  obtain ⟨payloads, hpackets, hpayloads⟩ := exists_payloads hmade
  obtain ⟨payloads', hpackets', hpayloads'⟩ := exists_payloads hmade'
  have hinjective : Function.Injective fun payload : Payload => some payload.val :=
    (Option.some_injective _).comp Subtype.val_injective
  rw [hpackets, hpackets', hpayloads, hpayloads', frame_prefixCode.flatMap_prefix_iff,
    List.prefix_map_iff_of_injective hinjective]

def nestedWrites : List (Nat × UInt8) := (frame []).zipIdx.map Prod.swap

/-- A payload that looks like a packet is not taken for one. -/
theorem RdmaMessage.packets_prefix_iff_nested :
    ∃ inner outer : RdmaMessage, inner.Made ∧ outer.Made ∧ outer.payload = some inner.packet ∧
      ([inner].flatMap RdmaMessage.packet <+: [outer, inner].flatMap RdmaMessage.packet ↔
        [inner].map RdmaMessage.payload <+: [outer, inner].map RdmaMessage.payload) := by
  obtain ⟨inner, hinner, hempty⟩ := RdmaMessage.build_holds (fun size => Vector.replicate size 0)
    (show (0 : UInt32).toNat + 12 < 2 ^ 32 by decide)
      (show ∀ write ∈ ([] : List (Nat × UInt8)), write.1 < (0 : UInt32).toNat by simp)
  obtain ⟨outer, houter, hfull⟩ := RdmaMessage.build_holds (fun size => Vector.replicate size 0)
    (show (12 : UInt32).toNat + 12 < 2 ^ 32 by decide)
    (show ∀ write ∈ nestedWrites, write.1 < (12 : UInt32).toNat by decide)
  have hmade : inner.Made := ⟨_, 0, [], by decide, by simp, hinner⟩
  have hmade' : outer.Made := ⟨_, 12, nestedWrites, by decide, by decide, houter⟩
  refine ⟨inner, outer, hmade, hmade', ?_, RdmaMessage.packets_prefix_iff ?_ ?_⟩
  · rw [RdmaMessage.payload, hfull.data, hfull.length, hfull.loads_payload, RdmaMessage.packet, hempty.rdma_pck,
      hempty.pck_len]
    decide
  · simpa using hmade
  · simpa using ⟨hmade', hmade⟩

end tc_rdma.rdma_com
