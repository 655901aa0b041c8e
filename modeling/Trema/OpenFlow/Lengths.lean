import Trema.OpenFlow.Creation

namespace Trema.OpenFlow

open Library Layout

def Construction.total : Construction → Nat
  | .error _ _ data => 12 + (data.getD []).length
  | .echoRequest body | .echoReply body => 8 + (body.getD []).length
  | .vendor _ data => 12 + (data.getD []).length
  | .featuresReply _ _ _ _ _ ports => 32 + 48 * ports.length
  | .packetIn _ _ _ _ data => 18 + (data.getD []).length
  | .packetOut _ _ actions data =>
    16 + (actionList actions).flatten.length + (data.getD []).length
  | .flowMod _ _ _ _ _ _ _ _ _ actions => 72 + (actionList actions).flatten.length
  | .vendorStatsRequest _ _ body | .vendorStatsReply _ _ body => 16 + (body.getD []).length
  | .flowStatsReply _ flows => 12 + (concat FlowStats.bytes flows).length
  | .tableStatsReply _ tables => 12 + 64 * tables.length
  | .portStatsReply _ ports => 12 + 104 * ports.length
  | .queueStatsReply _ queues => 12 + 32 * queues.length
  | .queueGetConfigReply _ queues => 16 + (concat PacketQueue.bytes queues).length
  | c => c.size

def Construction.actionsLength : Construction → Nat
  | .packetOut _ _ actions _ | .flowMod _ _ _ _ _ _ _ _ _ actions =>
    (actionList actions).flatten.length
  | _ => 0

structure Construction.Accepted (c : Construction) : Prop where
  guarded : c.Guarded
  encodable : c.Encodable
  actions : c.actionsLength ≤ 65535

theorem Construction.size_eq_total {c : Construction} (he : c.Encodable) : c.size = c.total := by
  cases c with
  | packetOut bufferId inPort actions data =>
    simp only [Construction.size,Construction.body,Construction.total,List.length_append,
      length_toNet32,length_toNet16,length_netActions he]
    omega
  | flowMod mtch cookie command idleTimeout hardTimeout priority bufferId outPort flags actions =>
    simp only [Construction.size,Construction.body,Construction.total,List.length_append,
      length_toNet32,length_toNet16,length_toNet64,length_netMatch,length_netActions he]
    omega
  | flowStatsReply flags flows =>
    simp only [Construction.size,Construction.body,Construction.total,List.length_append,
      length_statsHead,length_netFlows]
    omega
  | queueGetConfigReply port queues =>
    simp only [Construction.size,Construction.body,Construction.total,List.length_append,
      length_toNet16,length_netQueues,List.length_cons,List.length_nil]
    omega
  | featuresReply datapathId nBuffers nTables capabilities actions ports =>
    have hsize : Layout.size phyPortFields = 48 := by decide
    simp [Construction.size,Construction.body,Construction.total,length_netStructs,hsize]
    omega
  | tableStatsReply flags tables =>
    have hsize : Layout.size tableStatsFields = 64 := by decide
    simp [Construction.size,Construction.body,Construction.total,length_netStructs,hsize]
    omega
  | portStatsReply flags ports =>
    have hsize : Layout.size portStatsFields = 104 := by decide
    simp [Construction.size,Construction.body,Construction.total,length_netStructs,hsize]
    omega
  | queueStatsReply flags queues =>
    have hsize : Layout.size queueStatsFields = 32 := by decide
    simp [Construction.size,Construction.body,Construction.total,length_netStructs,hsize]
    omega
  | error type code data =>
    simp [Construction.size,Construction.body,Construction.total]
    omega
  | vendor vendorId data =>
    simp [Construction.size,Construction.body,Construction.total]
    omega
  | packetIn bufferId totalLen inPort reason data =>
    simp [Construction.size,Construction.body,Construction.total]
    omega
  | vendorStatsRequest flags vendorId body =>
    simp [Construction.size,Construction.body,Construction.total]
    omega
  | vendorStatsReply flags vendorId body =>
    simp [Construction.size,Construction.body,Construction.total]
    omega
  | _ => rfl

def Announced (xid : UInt32) (c : Construction) : Prop :=
  ∃ buffer, Yields (fun fuel => create fuel xid c) (.ok buffer) ∧
    (be16 buffer 2).toNat = c.total ∧ buffer.length = c.total

theorem be16_encode {xid : UInt32} {c : Construction} (hs : c.size ≤ 65535) :
    (be16 (encode xid c) 2).toNat = c.size := by
  have hlen : be16 (encode xid c) 2 = UInt16.ofNat c.size := by
    simp (disch := simp) [be16,encode,framed,header,Construction.size,slice_cons,slice_append_left,
      slice_whole]
  rw [hlen]
  exact UInt16.toNat_ofNat_of_lt' (Nat.lt_succ_of_le hs)

theorem length_encode (xid : UInt32) (c : Construction) : (encode xid c).length = c.size := by
  simp [encode,framed,Construction.size]

theorem announced_length_iff (xid : UInt32) (c : Construction) (ha : c.Accepted) :
    Announced xid c ↔ c.total ≤ 65535 := by
  constructor
  · rintro ⟨buffer,_,hlength,_⟩
    have hlt := (be16 buffer 2).toNat_lt
    omega
  · intro hs
    rw [← Construction.size_eq_total ha.encodable] at hs
    refine ⟨encode xid c,create_yields ha.guarded ha.encodable hs,?_,?_⟩
    · rw [be16_encode hs,Construction.size_eq_total ha.encodable]
    · rw [length_encode,Construction.size_eq_total ha.encodable]

theorem announced_length_short_error : Announced 7 (.error 1 2 (some [1,2,3])) :=
  (announced_length_iff 7 (.error 1 2 (some [1,2,3])) ⟨trivial,trivial,by decide⟩).mpr (by decide)

def longError : Construction := .error 0 0 (some (List.replicate 65537 0))

theorem longError_overruns : createError 0 0 0 (some (List.replicate 65537 0)) =
    .error .outOfBounds := by
  have hlength : dataLength (some (List.replicate 65537 0)) = 1 := by
    rw [dataLength,List.length_replicate]
    rfl
  rw [createError,hlength,createFields_eq (by decide),ok_bind,if_pos Nat.one_pos]
  refine if_neg ?_
  rw [Option.getD_some,List.length_replicate,length_draft (by decide)]
  decide

theorem announced_length_wraps : longError.Accepted ∧ ¬ Announced 0 longError ∧
    Yields (fun fuel => create fuel 0 longError) (.error .outOfBounds) := by
  refine ⟨⟨trivial,trivial,Nat.zero_le _⟩,?_,by simp,0,longError_overruns⟩
  rintro ⟨buffer,⟨_,fuel,hfuel⟩,_⟩
  have hrun : create fuel 0 longError = .error .outOfBounds := longError_overruns
  simp [hrun] at hfuel

end Trema.OpenFlow
