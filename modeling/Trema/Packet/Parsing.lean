import Trema.Packet.Layers
import Trema.SecureChannel.Buffer

namespace Trema.Packet

open Library
open OpenFlow (Exec)
open SecureChannel (Buffer removeFrontBuffer)

variable {frame : Bytes}

section Fuel

theorem skipNestedVlan_mono {ptr : Nat} {p : PacketInfo} {n m : Nat} (hle : n ≤ m)
    (hn : skipNestedVlan frame n ptr p ≠ .error .outOfFuel) :
    skipNestedVlan frame m ptr p = skipNestedVlan frame n ptr p := by
  induction n generalizing m ptr p with
  | zero => exact absurd rfl hn
  | succ n ih =>
    obtain ⟨m,rfl⟩ : ∃ k, m = k + 1 := ⟨m - 1,by omega⟩
    simp only [skipNestedVlan] at hn ⊢
    split
    · rename_i htag
      rw [if_pos htag] at hn
      split
      · rfl
      · rename_i hlong
        rw [if_neg hlong] at hn
        cases htype : (net16 frame (ptr + 2) : Exec UInt16) with
        | error stop => rfl
        | ok type =>
          rw [htype] at hn
          exact ih (by omega) hn
    · rfl

theorem settled_skipNestedVlan (ptr : Nat) (p : PacketInfo) :
    Settled (fun n => skipNestedVlan frame n ptr p) := fun _ _ hle hn => skipNestedVlan_mono hle hn

theorem settled_parseVlan (ptr : Nat) (p : PacketInfo) : Settled (fun n => parseVlan frame n ptr p) := by
  refine settled_ite (settled_ite (settled_const _) ?_) (settled_skipNestedVlan _ _)
  refine settled_bind (settled_const _) fun _ => settled_bind (settled_const _) fun _ => ?_
  exact settled_skipNestedVlan _ _

theorem settled_parseEther (p : PacketInfo) : Settled (fun n => parseEther frame n p) := by
  refine settled_bind (settled_const _) fun ptr => settled_ite (settled_const _) ?_
  refine settled_bind (settled_const _) fun _ => settled_bind (settled_const _) fun _ => ?_
  exact settled_bind (settled_const _) fun _ => settled_parseVlan _ _

theorem settled_parsePacket (frame : Bytes) : Settled (fun n => parsePacket frame n) :=
  settled_bind (settled_parseEther _) fun _ => settled_const _

theorem parsePacket_yields (frame : Bytes) :
    (EndsAtNetwork frame ∨ EndsAtTransport frame) ∧
        Yields (fun n => parsePacket frame n) (.error .aborted) ∨
      ¬ (EndsAtNetwork frame ∨ EndsAtTransport frame) ∧
        ∃ p, Yields (fun n => parsePacket frame n) (.ok p) ∧ Layered frame p := by
  have hfuel : frame.length < 4 * (frame.length + 1) := by omega
  rcases parsePacket_spec hfuel with ⟨hends,habort⟩ | ⟨hends,p,hparse,hlayered⟩
  · exact .inl ⟨hends,by simp,_,habort⟩
  · exact .inr ⟨hends,p,⟨by simp,_,hparse⟩,hlayered⟩

end Fuel

-- The frame does not end where the parser of the next layer expects a header.
theorem packet_parsed_iff (frame : Bytes) : (∃ p, Yields (fun n => parsePacket frame n) (.ok p)) ↔
    ¬ (EndsAtNetwork frame ∨ EndsAtTransport frame) := by
  rcases parsePacket_yields frame with ⟨hends,habort⟩ | ⟨hends,p,hparse,_⟩
  · refine iff_of_false ?_ (not_not.mpr hends)
    rintro ⟨p,hparse⟩
    exact absurd ((settled_parsePacket frame).yields_unique hparse habort) (by simp)
  · exact iff_of_true ⟨p,hparse⟩ hends

def bareArp : Bytes := List.replicate 12 0 ++ [0x08,0x06]

theorem bare_arp_aborts : 1 ≤ bareArp.length ∧
    Yields (fun n => parsePacket bareArp n) (.error .aborted) ∧
    ¬ ∃ p, Yields (fun n => parsePacket bareArp n) (.ok p) := by
  have habort : Yields (fun n => parsePacket bareArp n) (.error .aborted) := ⟨by simp,1,by decide⟩
  refine ⟨by decide,habort,?_⟩
  rintro ⟨p,hparse⟩
  exact absurd ((settled_parsePacket bareArp).yields_unique hparse habort) (by simp)

theorem Layered.inner {p : PacketInfo} (h : Layered frame p) (hsmall : frame.length ≤ 65535)
    (hoffset : p.etheripOffset ≠ 0) :
    ∃ inner, removeFrontBuffer (Buffer.ofBytes frame) p.etheripOffset.toNat = .ok inner ∧ 0 < inner.length := by
  rcases h.etherip hsmall with hzero | ⟨hpayload,_⟩
  · exact absurd hzero hoffset
  · obtain ⟨_,_,_,hlt,_⟩ := h.l4Payload _ hpayload
    have hpos : ¬ p.etheripOffset.toNat = 0 := fun hzero => hoffset (UInt16.toNat_inj.mp hzero)
    refine ⟨⟨frame,0 + p.etheripOffset.toNat,frame.length - p.etheripOffset.toNat⟩,?_,Nat.sub_pos_of_lt hlt⟩
    have hlong : ¬ (Buffer.ofBytes frame).length < p.etheripOffset.toNat := Nat.not_lt.mpr hlt.le
    rw [removeFrontBuffer,OpenFlow.abortIf,if_neg hpos,ok_bind,OpenFlow.abortIf,if_neg hlong,ok_bind]
    rfl

theorem packet_layered (frame : Bytes) : Safe (fun n => parsePacket frame n) ∧
    (Yields (fun n => parsePacket frame n) (.error .aborted) ∨
      ∃ p, Yields (fun n => parsePacket frame n) (.ok p) ∧ Layered frame p ∧
        (frame.length ≤ 65535 → p.etheripOffset ≠ 0 → ∃ inner,
          removeFrontBuffer (Buffer.ofBytes frame) p.etheripOffset.toNat = .ok inner ∧ 0 < inner.length)) := by
  rcases parsePacket_yields frame with ⟨_,habort⟩ | ⟨_,p,hparse,hlayered⟩
  · refine ⟨⟨(terminates_iff _).mpr ⟨_,habort⟩,(noFault_iff _).mpr fun hfault => ?_⟩,.inl habort⟩
    exact absurd ((settled_parsePacket frame).yields_unique hfault habort) (by simp)
  · refine ⟨(settled_parsePacket frame).safe hparse,.inr ⟨p,hparse,hlayered,?_⟩⟩
    exact hlayered.inner

end Trema.Packet
