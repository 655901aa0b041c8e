import Trema.OpenFlow.StatsDelivery

namespace Trema.OpenFlow

open Library Layout

def unpaddedAction (b : Bytes) : Bytes :=
  match ActionType.ofCode (Order.host.u16 b 0) with
  | some t => blank (actionFields t) b ++ b.drop (size (actionFields t))
  | none => b

def unpaddedProperty (b : Bytes) : Bytes :=
  b.take 4 ++ if Order.host.u16 b 0 = ofpqtMinRate then
    [0,0,0,0] ++ (slice b 8 2 ++ [0,0,0,0,0,0])
  else
    [0,0,0,0]

section Unpadding

theorem convert_unpadded {b : Bytes} (h : IsAction .host b) :
    convertBlock .net (convertBlock .host b) = unpaddedAction b := by
  obtain ⟨t,h⟩ := h
  rw [convert_twice h,unpaddedAction,h.type]

theorem convertBlocks_unpadded {actions : List Bytes} (h : ∀ b ∈ actions, IsAction .host b) :
    (actions.map (convertBlock .host)).map (convertBlock .net) = actions.map unpaddedAction := by
  rw [List.map_map]
  exact List.map_congr_left fun b hb => convert_unpadded (h b hb)

theorem flowImage_twice {e : Bytes} {actions : List Bytes} (h : FlowBlock .host e actions) :
    flowImage .net (flowImage .host e actions) (actions.map (convertBlock .host)) =
      blank flowStatsFields e ++ (actions.map unpaddedAction).flatten := by
  have hfits := h.fits
  have hread : readEnd flowStatsFields ≤ e.length := by
    rw [readEnd_flowStatsFields]
    exact hfits
  rw [flowImage,flowImage,concat,concat,convertBlocks_unpadded h.blocks,
    cells_append _ (by rw [length_cells hread]; exact readEnd_le_size _),
    cells_cells (by rw [size_flowStatsFields]; exact hfits)]

theorem FlowBlock.twice {e : Bytes} {actions : List Bytes} (h : FlowBlock .host e actions) :
    FlowBlock .host (blank flowStatsFields e ++ (actions.map unpaddedAction).flatten)
      (actions.map unpaddedAction) := by
  have himage : FlowBlock .net (flowImage .host e actions) (actions.map (convertBlock .host)) :=
    h.image
  have htwice := himage.image
  rw [flowImage_twice h,convertBlocks_unpadded h.blocks] at htwice
  exact htwice

theorem propertyImage_twice {b : Bytes} (h : PropertyBlock .host b) :
    propertyImage .net (propertyImage .host b (xcalloc b.length)) (xcalloc b.length) =
      unpaddedProperty b := by
  have hb := h.length_ge
  have hhead := length_propertyHead hb
  have hread : readEnd [.swap 2,.swap 2] ≤ b.length := show 4 ≤ b.length by omega
  have hkind : Order.net.u16 (propertyImage .host b (xcalloc b.length)) 0 = Order.host.u16 b 0 := by
    rw [propertyImage,Order.u16_append _ (by omega)]
    exact Order.u16_cells .host (by decide) hread
  have hcells : cells [.swap 2,.swap 2] (propertyImage .host b (xcalloc b.length)) = b.take 4 := by
    have hsize : size [.swap 2,.swap 2] ≤ b.length := show 4 ≤ b.length by omega
    rw [propertyImage,cells_append _ (by rw [hhead]; decide),cells_cells hsize]
    simp only [blank,Field.width,List.append_nil]
    rw [← List.take_add]
  have hpad : slice (xcalloc b.length) 4 4 = [0,0,0,0] := by
    rw [slice,xcalloc,List.drop_replicate,List.take_replicate,Nat.min_eq_left (by omega)]
    rfl
  rw [propertyImage,hkind,hcells,unpaddedProperty]
  rcases h.sized with ⟨hp,hl⟩ | ⟨hp,hl⟩
  · rw [hp,if_neg (by decide),if_neg (by decide),hl]
    rfl
  · have hrate : slice (propertyImage .host b (xcalloc b.length)) 8 2 = (slice b 8 2).reverse := by
      have hlen : (slice b 8 2).reverse.length = 2 := by
        rw [List.length_reverse,length_slice (by omega)]
      rw [propertyImage,if_pos hp,slice_append_right _ (by omega),hhead,
        slice_append_right _ (by rw [hpad]; decide),hpad,
        slice_append_left (by rw [hlen]; decide)]
      exact slice_whole hlen
    rw [hp,if_pos rfl,if_pos rfl,hpad,hrate,List.reverse_reverse,hl]
    rfl

theorem propertyImages_twice {properties : List Bytes} (h : ∀ b ∈ properties, PropertyBlock .host b) :
    List.zipWith (propertyImage .net)
      (List.zipWith (propertyImage .host) properties (properties.map fun b => xcalloc b.length))
      ((List.zipWith (propertyImage .host) properties (properties.map fun b => xcalloc b.length)).map
        fun b => xcalloc b.length) = properties.map unpaddedProperty := by
  induction properties with
  | nil => rfl
  | cons b bs ih =>
    have hb := h b (by simp)
    simp only [List.map_cons,List.zipWith_cons_cons]
    rw [ih fun c hc => h c (by simp [hc]),length_propertyImage hb (by simp [xcalloc]),
      propertyImage_twice hb]

theorem queueImage_twice {e : Bytes} {properties : List Bytes} (h : QueueBlock .host e properties) :
    hostQueue (queueImage .host e properties (properties.map fun b => xcalloc b.length),
      List.zipWith (propertyImage .host) properties (properties.map fun b => xcalloc b.length)) =
      blank packetQueueFields e ++ (properties.map unpaddedProperty).flatten := by
  have hfits := h.fits
  have hsize : size packetQueueFields ≤ e.length := hfits
  rw [hostQueue,queueImage,propertyImages_twice h.blocks,queueImage,
    cells_append _ (by rw [length_queueHead hfits]; decide),cells_cells hsize]

theorem QueueBlock.twice {e : Bytes} {properties : List Bytes} (h : QueueBlock .host e properties) :
    QueueBlock .host (blank packetQueueFields e ++ (properties.map unpaddedProperty).flatten)
      (properties.map unpaddedProperty) := by
  have himage : QueueBlock .net _ _ := h.image (cleared_properties properties)
  have htwice := himage.image (cleared_properties _)
  rw [propertyImages_twice h.blocks] at htwice
  rwa [← queueImage_twice h]

end Unpadding

def Struct.unpadded {fs : List Field} (s : Struct fs) : Struct fs where
  bytes := blank fs s.bytes
  sized := length_blank (le_of_eq s.sized.symm)

def FlowStats.unpadded (flow : FlowStats) : FlowStats where
  bytes := blank flowStatsFields flow.bytes ++ (flow.actions.map unpaddedAction).flatten
  actions := flow.actions.map unpaddedAction
  block := flow.block.twice

def PacketQueue.unpadded (queue : PacketQueue) : PacketQueue where
  bytes := blank packetQueueFields queue.bytes ++ (queue.properties.map unpaddedProperty).flatten
  properties := queue.properties.map unpaddedProperty
  block := queue.block.twice

def entriesBody {ι : Type} (wire : ι → Bytes) (entries : List ι) : Option Bytes :=
  if entries = [] then none else some (concat wire entries)

def replied (xid : UInt32) : Construction → Option StatsReply
  | .flowStatsReply flags flows => some ⟨xid,StatsType.flow.code,flags,
      entriesBody FlowStats.bytes (flows.map FlowStats.unpadded)⟩
  | .aggregateStatsReply flags packetCount byteCount flowCount =>
    some ⟨xid,StatsType.aggregate.code,flags,
      some (toHost64 packetCount ++ toHost64 byteCount ++ toHost32 flowCount ++ [0,0,0,0])⟩
  | .tableStatsReply flags tables => some ⟨xid,StatsType.table.code,flags,
      entriesBody Struct.bytes (tables.map Struct.unpadded)⟩
  | .portStatsReply flags ports => some ⟨xid,StatsType.port.code,flags,
      entriesBody Struct.bytes (ports.map Struct.unpadded)⟩
  | .queueStatsReply flags queues => some ⟨xid,StatsType.queue.code,flags,
      entriesBody Struct.bytes (queues.map Struct.unpadded)⟩
  | _ => none

def configured (xid : UInt32) : Construction → Option QueueConfig
  | .queueGetConfigReply port queues =>
    some ⟨xid,port,queues.map fun queue => queue.unpadded.bytes⟩
  | _ => none

section Replies

variable {xid : UInt32} {heap : Nat → UInt8}

theorem handleStatsReply_framed {type : StatsType} {flags : UInt16} {rest : Bytes}
    (hs : 12 + rest.length ≤ 65535) (hpos : 0 < rest.length) {converted : Bytes}
    (h : Yields (fun n => ntohStatsBody n heap type.code rest rest.length) (.ok converted)) :
    Yields (fun n => handleStatsReply n heap true
      (framed xid .statsReply (statsHead type flags ++ rest)))
      (.ok [⟨xid,type.code,flags,some converted⟩]) := by
  have hlen : (framed xid .statsReply (statsHead type flags ++ rest)).length = 12 + rest.length := by
    rw [length_framed]
    simp
    omega
  have hh : Headed (framed xid .statsReply (statsHead type flags ++ rest)) .statsReply 0 65535 :=
    headed_framed (by simp; omega) (Nat.zero_le _) (by simp; omega)
  have hhead : Holds (framed xid .statsReply (statsHead type flags ++ rest)) 8
      (statsHead type flags) := holds_framed_head
  obtain ⟨htype,hflags⟩ := statsHead_read hhead
  have hrest : (framed xid .statsReply (statsHead type flags ++ rest)).drop 12 = rest := by
    rw [show 12 = 8 + 4 from rfl,drop_framed,List.drop_left' (by simp)]
  have hbody : Yields (fun n => ntohStatsBody n heap
      (be16 (framed xid .statsReply (statsHead type flags ++ rest)) 8)
      ((framed xid .statsReply (statsHead type flags ++ rest)).drop 12)
      ((framed xid .statsReply (statsHead type flags ++ rest)).length - 12)) (.ok converted) := by
    rw [htype,hrest,hlen,Nat.add_sub_cancel_left]
    exact h
  have hy := handleStatsReply_yields hh.length (by omega) hbody
  rwa [be32_xid,htype,hflags] at hy

theorem handleStatsReply_bare {type : StatsType} {flags : UInt16} :
    Yields (fun n => handleStatsReply n heap true (framed xid .statsReply (statsHead type flags)))
      (.ok [⟨xid,type.code,flags,none⟩]) := by
  have hlen : (framed xid .statsReply (statsHead type flags)).length = 12 := by
    rw [length_framed]
    simp
  have hh : Headed (framed xid .statsReply (statsHead type flags)) .statsReply 0 65535 :=
    headed_framed (by simp) (Nat.zero_le _) (by simp)
  have hhead : Holds (framed xid .statsReply (statsHead type flags)) 8 (statsHead type flags) :=
    holds_framed
  obtain ⟨htype,hflags⟩ := statsHead_read hhead
  refine ⟨by simp,0,?_⟩
  simp only
  rw [handleStatsReply_empty hh.length hlen,be32_xid,htype,hflags]

theorem entries_delivered {ι κ : Type} {net : ι → Bytes} {wire : κ → Bytes} {unpad : ι → κ}
    {entries : List ι} {type : StatsType} {flags : UInt16}
    (hs : 12 + (concat net entries).length ≤ 65535) (hpos : ∀ e ∈ entries, 0 < (net e).length)
    (h : Yields (fun n => ntohStatsBody n heap type.code (concat net entries)
      (concat net entries).length) (.ok (concat wire (entries.map unpad)))) :
    Yields (fun n => handleStatsReply n heap true
      (framed xid .statsReply (statsHead type flags ++ concat net entries)))
      (.ok [⟨xid,type.code,flags,entriesBody wire (entries.map unpad)⟩]) := by
  cases entries with
  | nil =>
    rw [concat_nil,List.append_nil]
    exact handleStatsReply_bare
  | cons e es =>
    rw [entriesBody,if_neg (by simp)]
    refine handleStatsReply_framed hs ?_ h
    have := hpos e (by simp)
    rw [concat_cons,List.length_append]
    omega

theorem structs_converted {fs : List Field} (hsize : 8 ≤ size fs) (structs : List (Struct fs))
    (hlt : (netStructs structs).length < 65536) :
    Yields (fun n => ntohStatsEntries fs n (netStructs structs)
      (xmalloc heap (netStructs structs).length) (netStructs structs).length)
      (.ok (concat Struct.bytes (structs.map Struct.unpadded))) := by
  have hall : ∀ b ∈ structs.map (fun s => cells fs s.bytes), b.length = size fs := by
    intro b hb
    obtain ⟨s,_,rfl⟩ := List.mem_map.mp hb
    exact length_struct s
  have hblank : concat (cells fs) (structs.map fun s => cells fs s.bytes) =
      concat Struct.bytes (structs.map Struct.unpadded) := by
    rw [concat,concat,List.map_map,List.map_map]
    congr 1
    exact List.map_congr_left fun s _ => cells_cells (le_of_eq s.sized.symm)
  rw [← hblank]
  exact ntohStatsEntries_yields hsize hall rfl hlt (length_xmalloc heap _)

theorem structs_delivered {fs : List Field} (hsize : 8 ≤ size fs) {type : StatsType} {flags : UInt16}
    (structs : List (Struct fs)) (hs : 12 + (netStructs structs).length ≤ 65535)
    (hbody : ∀ n body length, ntohStatsBody n heap type.code body length =
      ntohStatsEntries fs n body (xmalloc heap length) length) :
    Yields (fun n => handleStatsReply n heap true
      (framed xid .statsReply (statsHead type flags ++ netStructs structs)))
      (.ok [⟨xid,type.code,flags,entriesBody Struct.bytes (structs.map Struct.unpadded)⟩]) := by
  refine entries_delivered hs (fun s _ => ?_) ?_
  · rw [length_struct]
    omega
  · simp only [hbody]
    exact structs_converted hsize structs (by omega)

theorem flows_delivered {flags : UInt16} (flows : List FlowStats)
    (hs : 12 + (concat netFlow flows).length ≤ 65535) :
    Yields (fun n => handleStatsReply n heap true
      (framed xid .statsReply (statsHead .flow flags ++ concat netFlow flows)))
      (.ok [⟨xid,StatsType.flow.code,flags,
        entriesBody FlowStats.bytes (flows.map FlowStats.unpadded)⟩]) := by
  have hall : ∀ e ∈ flows.map (fun flow => (netFlow flow,flow.actions.map (convertBlock .host))),
      FlowBlock .net e.1 e.2 := by
    intro e he
    obtain ⟨flow,_,rfl⟩ := List.mem_map.mp he
    exact flow.block.image
  have hwire : concat netFlow flows = concat Prod.fst
      (flows.map fun flow => (netFlow flow,flow.actions.map (convertBlock .host))) := by
    rw [concat,concat,List.map_map]
    rfl
  have hblank : concat (fun e => flowImage .net e.1 e.2)
      (flows.map fun flow => (netFlow flow,flow.actions.map (convertBlock .host))) =
      concat FlowStats.bytes (flows.map FlowStats.unpadded) := by
    rw [concat,concat,List.map_map,List.map_map]
    congr 1
    exact List.map_congr_left fun flow _ => flowImage_twice flow.block
  refine entries_delivered hs (fun flow _ => ?_) ?_
  · have := flow.block.fits
    rw [netFlow,length_flowImage flow.block]
    omega
  · rw [← hblank]
    exact ntohFlowEntries_yields hall hwire (by omega) (length_xmalloc heap _)

theorem aggregate_delivered {flags : UInt16} {packetCount byteCount : UInt64} {flowCount : UInt32} :
    Yields (fun n => handleStatsReply n heap true (framed xid .statsReply (statsHead .aggregate flags ++
      (toNet64 packetCount ++ toNet64 byteCount ++ toNet32 flowCount ++ [0,0,0,0]))))
      (.ok [⟨xid,StatsType.aggregate.code,flags,
        some (toHost64 packetCount ++ toHost64 byteCount ++ toHost32 flowCount ++ [0,0,0,0])⟩]) := by
  have hcells : cells aggregateStatsFields
      (toNet64 packetCount ++ toNet64 byteCount ++ toNet32 flowCount ++ [0,0,0,0]) =
      toHost64 packetCount ++ toHost64 byteCount ++ toHost32 flowCount ++ [0,0,0,0] := by
    simp [aggregateStatsFields,cells,reverse_toNet64,reverse_toNet32]
  refine handleStatsReply_framed (by simp) (by simp) ?_
  have haggregate : ∀ n body length, ntohStatsBody n heap StatsType.aggregate.code body length =
      ntohAggregateStats body 0 >>= store (xmalloc heap length) 0 := fun _ _ _ => rfl
  have hbody : (ntohAggregateStats
      (toNet64 packetCount ++ toNet64 byteCount ++ toNet32 flowCount ++ [0,0,0,0]) 0 >>=
      store (xmalloc heap (toNet64 packetCount ++ toNet64 byteCount ++ toNet32 flowCount ++
        [0,0,0,0]).length) 0) =
      .ok (toHost64 packetCount ++ toHost64 byteCount ++ toHost32 flowCount ++ [0,0,0,0]) := by
    rw [ntohAggregateStats,convert_inside (by simp; decide),ok_bind,List.drop_zero,hcells,
      store_ok (by rw [length_xmalloc]; simp),List.take_zero,List.nil_append,
      List.drop_eq_nil_of_le (by rw [length_xmalloc]; simp),List.append_nil]
  simp only [haggregate]
  exact yields_ok hbody

theorem queues_delivered {port : UInt16} (queues : List PacketQueue) (hne : queues ≠ [])
    (hs : 16 + (concat netQueue queues).length ≤ 65535) :
    Yields (fun n => handleQueueGetConfigReply n true (framed xid .queueGetConfigReply
      (toNet16 port ++ [0,0,0,0,0,0] ++ concat netQueue queues)))
      (.ok [⟨xid,port,queues.map fun queue => queue.unpadded.bytes⟩]) := by
  have hall : ∀ q ∈ queues.map (fun queue => (netQueue queue,List.zipWith (propertyImage .host)
      queue.properties (queue.properties.map fun b => xcalloc b.length))),
      QueueBlock .net q.1 q.2 := by
    intro q hq
    obtain ⟨queue,_,rfl⟩ := List.mem_map.mp hq
    exact queue.block.image (cleared_properties queue.properties)
  have hh : Headed (framed xid .queueGetConfigReply (toNet16 port ++ [0,0,0,0,0,0] ++
      concat netQueue queues)) .queueGetConfigReply 0 65535 :=
    headed_framed (by simp; omega) (Nat.zero_le _) (by simp; omega)
  have hsome : 0 < (concat netQueue queues).length := by
    cases queues with
    | nil => exact absurd rfl hne
    | cons queue queues =>
      have hfits := queue.block.fits
      have hlen : (netQueue queue).length = queue.bytes.length :=
        length_queueImage queue.block (cleared_properties queue.properties)
      rw [concat_cons,List.length_append]
      omega
  have htail : (framed xid .queueGetConfigReply (toNet16 port ++ [0,0,0,0,0,0] ++
      concat netQueue queues)).drop 16 = concat Prod.fst
        (queues.map fun queue => (netQueue queue,List.zipWith (propertyImage .host)
          queue.properties (queue.properties.map fun b => xcalloc b.length))) := by
    rw [show 16 = 8 + 8 from rfl,drop_framed,List.drop_left' (by simp),concat,concat,List.map_map]
    rfl
  have hport : be16 (framed xid .queueGetConfigReply (toNet16 port ++ [0,0,0,0,0,0] ++
      concat netQueue queues)) 8 = port := by
    rw [List.append_assoc]
    have hhead : Holds (framed xid .queueGetConfigReply (toNet16 port ++ ([0,0,0,0,0,0] ++
      concat netQueue queues))) 8 (toNet16 port) := holds_framed_head
    exact (hhead.be16 (i := 0) (by simp)).trans (by simp [be16,slice_whole])
  have hy := handleQueueGetConfigReply_yields hh.length hall
    (by rw [length_framed]; simp; omega) htail
  rw [be32_xid,hport,List.map_map] at hy
  have hqueues : queues.map (hostQueue ∘ fun queue => (netQueue queue,List.zipWith
      (propertyImage .host) queue.properties (queue.properties.map fun b => xcalloc b.length))) =
      queues.map fun queue => queue.unpadded.bytes :=
    List.map_congr_left fun queue _ => queueImage_twice queue.block
  rwa [hqueues] at hy

end Replies

theorem replies_delivered (xid : UInt32) (c : Construction) (heap : Nat → UInt8)
    (hne : ∀ port, c ≠ .queueGetConfigReply port []) (hs : c.size ≤ 65535) :
    (∀ reply, replied xid c = some reply →
      ∃ buffer, Yields (fun n => create n xid c) (.ok buffer) ∧
        Yields (fun n => handleStatsReply n heap true buffer) (.ok [reply])) ∧
    (∀ config, configured xid c = some config →
      ∃ buffer, Yields (fun n => create n xid c) (.ok buffer) ∧
        Yields (fun n => handleQueueGetConfigReply n true buffer) (.ok [config])) := by
  constructor
  · intro reply hreply
    cases c with
    | flowStatsReply flags flows =>
      injection hreply with hreply
      subst hreply
      refine ⟨_,create_yields trivial trivial hs,flows_delivered flows ?_⟩
      simp [Construction.size,Construction.body] at hs
      omega
    | aggregateStatsReply flags packetCount byteCount flowCount =>
      injection hreply with hreply
      subst hreply
      exact ⟨_,create_yields trivial trivial hs,aggregate_delivered⟩
    | tableStatsReply flags tables =>
      injection hreply with hreply
      subst hreply
      refine ⟨_,create_yields trivial trivial hs,
        structs_delivered (by decide) tables ?_ fun _ _ _ => rfl⟩
      simp [Construction.size,Construction.body] at hs
      omega
    | portStatsReply flags ports =>
      injection hreply with hreply
      subst hreply
      refine ⟨_,create_yields trivial trivial hs,
        structs_delivered (by decide) ports ?_ fun _ _ _ => rfl⟩
      simp [Construction.size,Construction.body] at hs
      omega
    | queueStatsReply flags queues =>
      injection hreply with hreply
      subst hreply
      refine ⟨_,create_yields trivial trivial hs,
        structs_delivered (by decide) queues ?_ fun _ _ _ => rfl⟩
      simp [Construction.size,Construction.body] at hs
      omega
    | _ => exact absurd hreply (by simp [replied])
  · intro config hconfig
    cases c with
    | queueGetConfigReply port queues =>
      injection hconfig with hconfig
      subst hconfig
      have hqueues : queues ≠ [] := by
        rintro rfl
        exact hne port rfl
      refine ⟨_,create_yields hqueues trivial hs,queues_delivered queues hqueues ?_⟩
      simp [Construction.size,Construction.body] at hs
      omega
    | _ => exact absurd hconfig (by simp [configured])

def outputFlow : FlowStats where
  bytes := toHost16 96 ++ List.replicate 86 0 ++ (ActionCall.output 1 0).block
  actions := [(ActionCall.output 1 0).block]
  block := by
    refine ⟨by decide,by decide,by decide,?_⟩
    intro b hb
    rw [List.mem_singleton.mp hb]
    exact ⟨_,actionBlock_block (by decide)⟩

theorem output_flow_delivered :
    ∃ reply, replied 1 (.flowStatsReply 0 [outputFlow]) = some reply ∧
      ∃ buffer, Yields (fun n => create n 1 (.flowStatsReply 0 [outputFlow])) (.ok buffer) ∧
        Yields (fun n => handleStatsReply n (fun _ => 0) true buffer) (.ok [reply]) := by
  refine ⟨_,rfl,?_⟩
  exact (replies_delivered 1 (.flowStatsReply 0 [outputFlow]) (fun _ => 0) (by simp)
    (by decide)).1 _ rfl

theorem empty_queues_not_delivered :
    ∃ config, configured 1 (.queueGetConfigReply 1 []) = some config ∧
      (Construction.queueGetConfigReply 1 []).size ≤ 65535 ∧
      ¬ ∃ buffer, Yields (fun n => create n 1 (.queueGetConfigReply 1 [])) (.ok buffer) ∧
        Yields (fun n => handleQueueGetConfigReply n true buffer) (.ok [config]) := by
  refine ⟨_,rfl,by decide,?_⟩
  rintro ⟨buffer,⟨_,n,hn⟩,_⟩
  have habort : create n 1 (.queueGetConfigReply 1 []) = .error .aborted := rfl
  simp only [habort] at hn
  simp at hn

end Trema.OpenFlow
