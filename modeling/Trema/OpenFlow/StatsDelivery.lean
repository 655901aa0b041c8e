import Trema.OpenFlow.Delivery

namespace Trema.OpenFlow

open Library Layout

def requested (xid : UInt32) : Construction → Option SwitchEvent
  | .descStatsRequest flags => some (.statsRequest xid StatsType.desc.code flags none)
  | .flowStatsRequest flags mtch tableId outPort =>
    some (.statsRequest xid StatsType.flow.code flags
      (some (mtch.unpadded.toHost ++ [tableId,0] ++ toHost16 outPort)))
  | .aggregateStatsRequest flags mtch tableId outPort =>
    some (.statsRequest xid StatsType.aggregate.code flags
      (some (mtch.unpadded.toHost ++ [tableId,0] ++ toHost16 outPort)))
  | .tableStatsRequest flags => some (.statsRequest xid StatsType.table.code flags none)
  | .portStatsRequest flags portNo =>
    some (.statsRequest xid StatsType.port.code flags (some (toHost16 portNo ++ [0,0,0,0,0,0])))
  | .queueStatsRequest flags portNo queueId =>
    some (.statsRequest xid StatsType.queue.code flags
      (some (toHost16 portNo ++ [0,0] ++ toHost32 queueId)))
  | .vendorStatsRequest flags vendorId body =>
    some (.statsRequest xid StatsType.vendor.code flags
      (some (toHost32 vendorId ++ body.getD [])))
  | _ => none

def Construction.RequestReadable : Construction → Prop
  | .queueStatsRequest _ portNo queueId =>
    toNet16 portNo = toHost16 portNo ∧ toNet32 queueId = toHost32 queueId
  | .vendorStatsRequest _ _ body => (body.getD []).length ≤ 65519
  | _ => True

section StatsRequests

variable {xid : UInt32} {handlers : Handlers}

theorem convertInPlace_eq {fs : List Field} {m : Bytes} {p : Nat} (pre b post : Bytes)
    (hm : m = pre ++ b ++ post) (hp : pre.length = p) (hb : b.length = size fs) :
    convertInPlace fs m p = .ok (pre ++ cells fs b ++ post) := by
  have hread := readEnd_le_size fs
  have hcells : (cells fs b).length = size fs := length_cells (by omega)
  have hdrop : m.drop p = b ++ post := by
    rw [hm,List.append_assoc,List.drop_left' hp]
  rw [convertInPlace,convert_inside (by rw [hm]; simp; omega),ok_bind,hdrop,cells_append _ (by omega)]
  subst hm hp
  exact store_append pre b post _ (by rw [hcells,hb])

theorem convertInPlace_swap {n p : Nat} {m : Bytes} (pre b post : Bytes) (hm : m = pre ++ b ++ post)
    (hp : pre.length = p) (hb : b.length = n) :
    convertInPlace [.swap n] m p = .ok (pre ++ b.reverse ++ post) := by
  have hcells : cells [.swap n] b = b.reverse := by
    rw [cells,cells,List.append_nil,List.take_of_length_le (by omega)]
  rw [convertInPlace_eq pre b post hm hp (by simp [size,Field.width,hb]),hcells]

theorem cells_netMatch (mtch : OfpMatch) : cells matchFields (netMatch mtch) = mtch.unpadded.toHost := by
  rw [netMatch,cells_cells (by simp; decide)]
  have hpad : toHost16 0 = [0,0] := rfl
  have hlast : List.take 2 (toHost16 mtch.tpDst) = toHost16 mtch.tpDst :=
    List.take_of_length_le (by simp)
  simp [blank,OfpMatch.toHost,OfpMatch.unpadded,matchFields,Field.width,List.take_append,
    List.drop_append,Mac.toBytes,hpad,hlast]

theorem handleStatsRequest_framed {type : StatsType} {flags : UInt16} {rest : Bytes}
    (hs : 12 + rest.length ≤ 65535) (hreg : handlers .statsRequest = true) :
    handleStatsRequest handlers (framed xid .statsRequest (statsHead type flags ++ rest)) =
      if 0 < rest.length then do
        let body ← ntohStatsRequestBody type.code rest
        pure [.statsRequest xid type.code flags (some body)]
      else pure [.statsRequest xid type.code flags none] := by
  have hlen : (framed xid .statsRequest (statsHead type flags ++ rest)).length = 12 + rest.length := by
    rw [length_framed]
    simp
    omega
  have hh : Headed (framed xid .statsRequest (statsHead type flags ++ rest)) .statsRequest 0 65535 :=
    headed_framed (by simp; omega) (Nat.zero_le _) (by simp; omega)
  have hhead : Holds (framed xid .statsRequest (statsHead type flags ++ rest)) 8
      (statsHead type flags) := holds_framed_head
  obtain ⟨htype,hflags⟩ := statsHead_read hhead
  have hrest : slice (framed xid .statsRequest (statsHead type flags ++ rest)) 12 rest.length =
      rest := by
    rw [slice,show 12 = 8 + 4 from rfl,drop_framed,List.drop_left' (by simp),List.take_length]
  have hbody : subSize (12 + rest.length) 12 = rest.length := by
    rw [subSize_of_le (by omega)]
    omega
  rw [handleStatsRequest,net32_inside (by omega),ok_bind,net16_inside (by omega),ok_bind,
    net16_inside (by omega),ok_bind,net16_inside (by omega),ok_bind,htype,hflags,be32_xid,
    hh.length,hlen]
  simp only [hbody]
  split
  · rw [load_ok (by omega),ok_bind,hrest]
    refine bind_congr fun body => ?_
    simp [Handlers.call,hreg,pure,Except.pure]
  · simp [Handlers.call,hreg,pure,Except.pure]

theorem convert_flowRequest (mtch : OfpMatch) (tableId : UInt8) (outPort : UInt16) :
    (do
      let body ← convertInPlace matchFields (netMatch mtch ++ [tableId,0] ++ toNet16 outPort) 0
      convertInPlace [.swap 2] body 42) =
      .ok (mtch.unpadded.toHost ++ [tableId,0] ++ toHost16 outPort) := by
  rw [convertInPlace_eq [] (netMatch mtch) ([tableId,0] ++ toNet16 outPort)
    (by simp) (show _ = 0 from rfl) (by rw [length_netMatch]; decide),ok_bind,cells_netMatch,
    convertInPlace_swap (mtch.unpadded.toHost ++ [tableId,0]) (toNet16 outPort) []
      (by simp) (by simp) (by simp),reverse_toNet16,List.append_nil]

theorem requested_flow {type : StatsType} (ht : type = .flow ∨ type = .aggregate) {flags : UInt16}
    {mtch : OfpMatch} {tableId : UInt8} {outPort : UInt16} (hreg : handlers .statsRequest = true) :
    handleStatsRequest handlers (framed xid .statsRequest (statsHead type flags ++
      (netMatch mtch ++ [tableId,0] ++ toNet16 outPort))) =
      .ok [.statsRequest xid type.code flags
        (some (mtch.unpadded.toHost ++ [tableId,0] ++ toHost16 outPort))] := by
  have hbody : ntohStatsRequestBody type.code (netMatch mtch ++ [tableId,0] ++ toNet16 outPort) =
      .ok (mtch.unpadded.toHost ++ [tableId,0] ++ toHost16 outPort) := by
    obtain rfl | rfl := ht
    · exact convert_flowRequest mtch tableId outPort
    · exact convert_flowRequest mtch tableId outPort
  rw [handleStatsRequest_framed (by simp) hreg,if_pos (by simp),hbody]
  rfl

theorem requested_empty {type : StatsType} {flags : UInt16} (hreg : handlers .statsRequest = true) :
    handleStatsRequest handlers (framed xid .statsRequest (statsHead type flags)) =
      .ok [.statsRequest xid type.code flags none] := by
  rw [← List.append_nil (statsHead type flags),handleStatsRequest_framed (by simp) hreg]
  rfl

theorem requested_port {flags portNo : UInt16} (hreg : handlers .statsRequest = true) :
    handleStatsRequest handlers (framed xid .statsRequest (statsHead .port flags ++
      (toNet16 portNo ++ [0,0,0,0,0,0]))) =
      .ok [.statsRequest xid StatsType.port.code flags
        (some (toHost16 portNo ++ [0,0,0,0,0,0]))] := by
  have hbody : ntohStatsRequestBody StatsType.port.code (toNet16 portNo ++ [0,0,0,0,0,0]) =
      .ok (toHost16 portNo ++ [0,0,0,0,0,0]) :=
    (convertInPlace_swap [] (toNet16 portNo) _ rfl rfl (by simp)).trans
      (by rw [reverse_toNet16,List.nil_append])
  rw [handleStatsRequest_framed (by simp) hreg,if_pos (by simp),hbody]
  rfl

theorem requested_queue {flags portNo : UInt16} {queueId : UInt32}
    (hreg : handlers .statsRequest = true) :
    handleStatsRequest handlers (framed xid .statsRequest (statsHead .queue flags ++
      (toNet16 portNo ++ [0,0] ++ toNet32 queueId))) =
      .ok [.statsRequest xid StatsType.queue.code flags
        (some (toNet16 portNo ++ [0,0] ++ toNet32 queueId))] := by
  rw [handleStatsRequest_framed (by simp) hreg,if_pos (by simp)]
  rfl

theorem requested_vendor {flags : UInt16} {vendorId : UInt32} {data : Bytes}
    (hs : data.length ≤ 65519) (hreg : handlers .statsRequest = true) :
    handleStatsRequest handlers (framed xid .statsRequest (statsHead .vendor flags ++
      (toNet32 vendorId ++ data))) =
      .ok [.statsRequest xid StatsType.vendor.code flags (some (toHost32 vendorId ++ data))] := by
  have hbody : ntohStatsRequestBody StatsType.vendor.code (toNet32 vendorId ++ data) =
      .ok (toHost32 vendorId ++ data) :=
    (convertInPlace_swap [] (toNet32 vendorId) data rfl rfl (by simp)).trans
      (by rw [reverse_toNet32,List.nil_append])
  rw [handleStatsRequest_framed (by simp; omega) hreg,if_pos (by simp),hbody]
  rfl

theorem dataLength_lt (body : Option Bytes) : dataLength body < 65536 := by
  cases body with
  | none => decide
  | some b => exact Nat.mod_lt _ (by decide)

theorem createVendorStats_taken {type : OfpType} {flags : UInt16} {vendorId : UInt32}
    {body : Option Bytes} :
    createVendorStats (createStats xid type) flags vendorId body =
      createVendorStats (createStats xid type) flags vendorId
        (some ((body.getD []).take (dataLength body))) := by
  have hlen := length_taken body
  have hsame : dataLength (some ((body.getD []).take (dataLength body))) = dataLength body := by
    rw [dataLength,hlen,cast16_of_lt (dataLength_lt body)]
  have hload : (load (body.getD []) 0 (dataLength body) : Exec Bytes) =
      load ((body.getD []).take (dataLength body)) 0 (dataLength body) := by
    have htake := hlen
    rw [List.length_take] at htake
    rw [load_ok (by omega),load_ok (by omega),slice_whole hlen]
    rfl
  simp only [createVendorStats,copyData,hsame,hload,Option.getD_some]

theorem createVendorStats_wrapped {type : OfpType} {flags : UInt16} {vendorId : UInt32}
    {body : Option Bytes} (h : 65519 < dataLength body) (buffer : Bytes) :
    createVendorStats (createStats xid type) flags vendorId body ≠ .ok buffer := by
  intro hc
  have hlt := dataLength_lt body
  have hwrap : cast16 (12 + 4 + dataLength body) = dataLength body - 65520 := by
    rw [cast16]
    omega
  obtain ⟨b,hb,hc⟩ := bind_eq_ok.mp hc
  obtain ⟨b',hb',_⟩ := bind_eq_ok.mp hc
  obtain ⟨d,hd,hb⟩ := bind_eq_ok.mp hb
  obtain ⟨_,hguard,hd⟩ := bind_eq_ok.mp hd
  have hroom := (store_eq_ok.mp hb').1
  have hkept := length_of_store hb
  have hfull : 8 ≤ cast16 (12 + 4 + dataLength body) := by
    by_contra hsmall
    rw [abortIf,if_pos (by omega)] at hguard
    simp at hguard
  injection hd with hd
  rw [hwrap] at hd hfull
  rw [hkept,← hd] at hroom
  simp at hroom
  omega

theorem queueRequest_readable {flags portNo : UInt16} {queueId : UInt32}
    (hreg : handlers .statsRequest = true) :
    (∃ buffer, Yields (fun n => create n xid (.queueStatsRequest flags portNo queueId)) (.ok buffer) ∧
      handleStatsRequest handlers buffer = .ok [.statsRequest xid StatsType.queue.code flags
        (some (toHost16 portNo ++ [0,0] ++ toHost32 queueId))]) ↔
      toNet16 portNo = toHost16 portNo ∧ toNet32 queueId = toHost32 queueId := by
  have hcreate : (fun n => create n xid (.queueStatsRequest flags portNo queueId)) =
      fun _ => .ok (framed xid .statsRequest (statsHead .queue flags ++
        (toNet16 portNo ++ [0,0] ++ toNet32 queueId))) := funext fun _ => createQueueStatsRequest_eq
  have hsplit : toNet16 portNo ++ [0,0] ++ toNet32 queueId =
      toHost16 portNo ++ [0,0] ++ toHost32 queueId ↔
        toNet16 portNo = toHost16 portNo ∧ toNet32 queueId = toHost32 queueId := by
    constructor
    · intro h
      obtain ⟨hhead,hid⟩ := List.append_inj h (by simp)
      exact ⟨(List.append_inj hhead (by simp)).1,hid⟩
    · rintro ⟨hport,hid⟩
      rw [hport,hid]
  rw [hcreate,← hsplit]
  constructor
  · rintro ⟨buffer,hb,hdone⟩
    obtain ⟨hb,_⟩ := (yields_const _ _).mp hb
    injection hb with hb
    rw [hb,requested_queue hreg] at hdone
    simpa using hdone
  · intro h
    refine ⟨_,yields_ok rfl,?_⟩
    rw [requested_queue hreg,h]

theorem vendorRequest_readable {flags : UInt16} {vendorId : UInt32} {body : Option Bytes}
    (hreg : handlers .statsRequest = true) :
    (∃ buffer, Yields (fun n => create n xid (.vendorStatsRequest flags vendorId body)) (.ok buffer) ∧
      handleStatsRequest handlers buffer = .ok [.statsRequest xid StatsType.vendor.code flags
        (some (toHost32 vendorId ++ body.getD []))]) ↔ (body.getD []).length ≤ 65519 := by
  have hlen := length_taken body
  have hcreate : (fun n => create n xid (.vendorStatsRequest flags vendorId body)) =
      fun _ => createVendorStats (createStats xid .statsRequest) flags vendorId body := rfl
  rw [hcreate]
  constructor
  · rintro ⟨buffer,hb,hdone⟩
    obtain ⟨hb,_⟩ := (yields_const _ _).mp hb
    have hfits : dataLength body ≤ 65519 := by
      by_contra hwrap
      exact createVendorStats_wrapped (by omega) buffer hb.symm
    rw [createVendorStats_taken,createVendorStats_eq (by simp only [Option.getD_some]; omega)] at hb
    injection hb with hb
    rw [hb,List.append_assoc,requested_vendor (by simp only [Option.getD_some]; omega) hreg] at hdone
    have hkept : (body.getD []).take (dataLength body) = body.getD [] := by simpa using hdone
    rw [hkept] at hlen
    omega
  · intro h
    refine ⟨_,yields_ok (createVendorStats_eq (by omega)),?_⟩
    rw [List.append_assoc,requested_vendor h hreg]

end StatsRequests

theorem stats_requests_decoded_iff (xid : UInt32) (c : Construction) (event : SwitchEvent)
    (handlers : Handlers) (hc : requested xid c = some event)
    (hreg : handlers .statsRequest = true) :
    (∃ buffer, Yields (fun n => create n xid c) (.ok buffer) ∧
      handleStatsRequest handlers buffer = .ok [event]) ↔ c.RequestReadable := by
  have hready : ∀ {body : Bytes}, c.Guarded → c.Encodable → c.size ≤ 65535 →
      encode xid c = framed xid .statsRequest body →
      handleStatsRequest handlers (framed xid .statsRequest body) = .ok [event] →
      ∃ buffer, Yields (fun n => create n xid c) (.ok buffer) ∧
        handleStatsRequest handlers buffer = .ok [event] := by
    intro body hg he hs hbody hdone
    exact ⟨encode xid c,create_yields hg he hs,by rw [hbody,hdone]⟩
  cases c with
  | descStatsRequest flags =>
    injection hc with hc
    subst hc
    exact iff_of_true (hready trivial trivial (by simp [Construction.size,Construction.body]) rfl
      (requested_empty hreg)) trivial
  | flowStatsRequest flags mtch tableId outPort =>
    injection hc with hc
    subst hc
    exact iff_of_true (hready trivial trivial (by simp [Construction.size,Construction.body]) rfl
      (requested_flow (.inl rfl) hreg)) trivial
  | aggregateStatsRequest flags mtch tableId outPort =>
    injection hc with hc
    subst hc
    exact iff_of_true (hready trivial trivial (by simp [Construction.size,Construction.body]) rfl
      (requested_flow (.inr rfl) hreg)) trivial
  | tableStatsRequest flags =>
    injection hc with hc
    subst hc
    exact iff_of_true (hready trivial trivial (by simp [Construction.size,Construction.body]) rfl
      (requested_empty hreg)) trivial
  | portStatsRequest flags portNo =>
    injection hc with hc
    subst hc
    exact iff_of_true (hready trivial trivial (by simp [Construction.size,Construction.body]) rfl
      (requested_port hreg)) trivial
  | queueStatsRequest flags portNo queueId =>
    injection hc with hc
    subst hc
    exact queueRequest_readable hreg
  | vendorStatsRequest flags vendorId body =>
    injection hc with hc
    subst hc
    exact vendorRequest_readable hreg
  | _ => exact absurd hc (by simp [requested])

theorem port_stats_request_decoded :
    ∃ event, requested 1 (.portStatsRequest 0 1) = some event ∧
      ∃ buffer, Yields (fun n => create n 1 (.portStatsRequest 0 1)) (.ok buffer) ∧
        handleStatsRequest (fun _ => true) buffer = .ok [event] := by
  exact ⟨_,rfl,(stats_requests_decoded_iff 1 (.portStatsRequest 0 1) _ (fun _ => true) rfl rfl).mpr
    trivial⟩

theorem queue_stats_request_not_decoded :
    ∃ event, requested 1 (.queueStatsRequest 0 1 1) = some event ∧
      ¬ ∃ buffer, Yields (fun n => create n 1 (.queueStatsRequest 0 1 1)) (.ok buffer) ∧
        handleStatsRequest (fun _ => true) buffer = .ok [event] := by
  refine ⟨_,rfl,?_⟩
  rw [queueRequest_readable rfl]
  decide

end Trema.OpenFlow
