import Trema.OpenFlow.Tiling
import Trema.OpenFlow.Decode

namespace Trema.OpenFlow

open Library Layout

-- The converter of the action takes it by itself, and writes no more than the action is long.
def Converted (b : Bytes) : Prop := ∃ cells, ntohAction b 0 = .ok cells ∧ cells.length ≤ b.length

def TiledActions (m : Bytes) (head length : Nat) : Prop :=
  head + length ≤ m.length ∧
    ∃ actions, Tiles 2 (slice m head length) actions ∧ ∀ b ∈ actions, Converted b

def TiledStats (message : Bytes) : StatsType → Prop
  | .flow => ∃ entries, Tiles 0 (message.drop 12) entries ∧
      ∀ e ∈ entries, 88 ≤ e.length ∧ ∃ actions, Tiles 2 (e.drop 88) actions
  | .table => (message.length - 12) % 64 = 0
  | .port => (message.length - 12) % 104 = 0
  | .queue => (message.length - 12) % 32 = 0
  | _ => True

def TiledByType (message : Bytes) : OfpType → Prop
  | .packetOut => TiledActions message 16 (be16 message 14).toNat
  | .flowMod => TiledActions message 72 (message.length - 72)
  | .statsReply => ∀ t, StatsType.ofCode (be16 message 8) = some t → TiledStats message t
  | .queueGetConfigReply => ∃ queues, Tiles 4 (message.drop 16) queues ∧
      ∀ q ∈ queues, 8 ≤ q.length ∧ ∃ properties, Tiles 2 (q.drop 8) properties
  | _ => True

def StatsReplySafe (message : Bytes) : Prop :=
  (∀ heap registered, Safe (fun n => handleStatsReply n heap registered message)) ∧
    ∀ lookup translation, Safe (fun n => ofpmsgRecvStatsreply lookup translation n message)

def SafeByType (message : Bytes) : OfpType → Prop
  | .packetOut => ∀ handlers, Safe (fun n => handlePacketOut n handlers message)
  | .flowMod => ∀ handlers, Safe (fun n => handleFlowMod n handlers message)
  | .statsReply => StatsReplySafe message
  | .queueGetConfigReply =>
      ∀ registered, Safe (fun n => handleQueueGetConfigReply n registered message)
  | _ => True

def FlowStatsFit (message : Bytes) : Prop :=
  ∀ lens s length, FlowWalk message (message.length - 12,12) lens s →
    FlowEntryAt message s length → 88 ≤ length ∧ ActionsFit message (s.2 + 88) (length - 88)

def QueuesFit (message : Bytes) : Prop :=
  ∀ lens s len, QueueWalk message ⟨message.length - 16,16,0⟩ lens s → QueueAt message s len →
    PropertiesFit message (s.queue + 8) (len - 8)

abbrev LengthWalk (m : Bytes) (head length : Nat) :=
  Walk (fun offset len => offset < length ∧ (be16 m (head + offset + 2)).toNat = len) (· + ·)

structure ActionContained (m : Bytes) (p left : Nat) : Prop where
  known : ∃ t, ActionType.ofCode (be16 m p) = some t ∧
    size (actionFields t) ≤ (be16 m (p + 2)).toNat
  fits : (be16 m (p + 2)).toNat ≤ left

-- What keeps the decoder of a flow-mod inside actions that the validator has not looked at.
def ActionsContained (m : Bytes) (head length : Nat) : Prop :=
  ∀ lens offset, LengthWalk m head length 0 lens offset → offset < length →
    ActionContained m (head + offset) (length - offset)

def FlowModFits (message : Bytes) : Prop :=
  if be16 message 56 ≤ ofpfcDeleteStrict then ActionsFit message 72 (message.length - 72)
  else ActionsContained message 72 (message.length - 72)

def StatsFit (message : Bytes) : StatsType → Prop
  | .flow => FlowStatsFit message
  | .aggregate => message.length = 12 ∨ message.length = 36
  | .vendor => message.length = 12 ∨ 16 ≤ message.length
  | _ => True

def FitsByType (message : Bytes) : OfpType → Prop
  | .packetOut => 16 + (be16 message 14).toNat ≤ message.length ∧
      ActionsFit message 16 (be16 message 14).toNat
  | .flowMod => FlowModFits message
  | .statsReply => ∀ t, StatsType.ofCode (be16 message 8) = some t → StatsFit message t
  | .queueGetConfigReply => QueuesFit message
  | _ => True

section Settling

variable (message : Bytes)

theorem settled_handlePacketOut (handlers : Handlers) :
    Settled (fun n => handlePacketOut n handlers message) :=
  settled_bind (settled_const _) (fun _ => settled_bind (settled_const _) (fun _ =>
    settled_bind (settled_const _) (fun _ => settled_bind (settled_const _) (fun _ =>
      settled_bind (settled_decodeActions _ _ _) (fun _ => settled_const _)))))

theorem settled_handleFlowMod (handlers : Handlers) :
    Settled (fun n => handleFlowMod n handlers message) :=
  settled_bind (settled_const _) (fun _ => settled_bind (settled_const _) (fun _ =>
    settled_bind (settled_const _) (fun _ => settled_bind (settled_const _) (fun _ =>
      settled_bind (settled_const _) (fun _ => settled_bind (settled_const _) (fun _ =>
        settled_bind (settled_const _) (fun _ => settled_bind (settled_const _) (fun _ =>
          settled_bind (settled_const _) (fun _ => settled_bind (settled_const _) (fun _ =>
            settled_bind (settled_const _) (fun _ =>
              settled_bind (settled_decodeActions _ _ _) (fun _ => settled_const _))))))))))))

theorem settled_ntohFlowEntries (body out : Bytes) (length : Nat) :
    Settled (fun n => ntohFlowEntries n body out length) :=
  settled_bind (settled_whileLoop (settled_ntohFlowEntry body) _) (fun _ => settled_const _)

theorem settled_ntohStatsEntries (fs : List Field) (body out : Bytes) (length : Nat) :
    Settled (fun n => ntohStatsEntries fs n body out length) :=
  settled_bind (settled_whileLoop (fun s => settled_const (ntohStatsEntry fs body s)) _)
    (fun _ => settled_const _)

theorem settled_ntohStatsBody (heap : Nat → UInt8) (type : UInt16) (body : Bytes) (length : Nat) :
    Settled (fun n => ntohStatsBody n heap type body length) := by
  unfold ntohStatsBody
  cases StatsType.ofCode type with
  | none => exact settled_const _
  | some t =>
    cases t with
    | flow => exact settled_ntohFlowEntries _ _ _
    | table => exact settled_ntohStatsEntries _ _ _ _
    | port => exact settled_ntohStatsEntries _ _ _ _
    | queue => exact settled_ntohStatsEntries _ _ _ _
    | _ => exact settled_const _

theorem settled_handleStatsReply (heap : Nat → UInt8) (registered : Bool) :
    Settled (fun n => handleStatsReply n heap registered message) :=
  settled_bind (settled_const _) (fun _ => settled_bind (settled_const _) (fun _ =>
    settled_bind (settled_const _) (fun _ => settled_bind (settled_const _) (fun _ =>
      settled_bind (settled_const _) (fun _ => settled_ite (settled_ite
        (settled_bind (settled_const _) (fun _ => settled_bind (settled_ntohStatsBody _ _ _ _)
          (fun _ => settled_const _))) (settled_const _)) (settled_const _))))))

theorem settled_handleQueueGetConfigReply (registered : Bool) :
    Settled (fun n => handleQueueGetConfigReply n registered message) :=
  settled_bind (settled_const _) (fun _ => settled_bind (settled_const _) (fun _ =>
    settled_bind (settled_const _) (fun _ => settled_bind (settled_const _) (fun _ =>
      settled_ite (settled_bind (settled_const _) (fun _ => settled_bind (settled_queueLoop _)
        (fun _ => settled_const _))) (settled_const _)))))

theorem settled_ofpmsgRecvStatsreply (lookup : UInt64 → Option UInt64) (translation : Bool) :
    Settled (fun n => ofpmsgRecvStatsreply lookup translation n message) :=
  settled_bind (settled_const _) (fun _ => settled_ite (settled_bind (settled_const _) (fun _ =>
    settled_bind (settled_whileLoop (fun s => settled_const (rewriteCookie lookup s)) _)
      (fun _ => settled_const _))) (settled_const _))

end Settling

section Contained

variable {b : Bytes} {t : ActionType}

theorem ActionBlock.contained (h : ActionBlock .net t b) : ContainedAction t b := ⟨h.type,h.len,h.fits⟩

theorem ContainedAction.converted (h : ContainedAction t b) : Converted b := by
  obtain ⟨body,hconvert,hroom⟩ := ntohAction_contained h (holds_self b)
  refine ⟨_,hconvert,?_⟩
  rw [List.length_append,length_cells h.readEnd_le]
  exact hroom

theorem converted_of_isAction (h : IsAction .net b) : Converted b := by
  obtain ⟨t,ht⟩ := h
  exact ht.contained.converted

theorem contained_of_converted (hlen : (be16 b 2).toNat = b.length) (h : Converted b) :
    ∃ t, ContainedAction t b := by
  obtain ⟨out,hout,hle⟩ := h
  simp only [ntohAction,convertAction,Order.read16,bind_eq_ok,within_eq_ok] at hout
  obtain ⟨_,⟨_,rfl⟩,hout⟩ := hout
  cases htype : ActionType.ofCode (be16 b 0) with
  | none => simp [Order.u16,htype] at hout
  | some t =>
    refine ⟨t,htype,hlen,?_⟩
    have hcells : ∃ body, out = cells (actionFields t) b ++ body ∧ readEnd (actionFields t) ≤ b.length := by
      by_cases hv : t = .vendor
      · subst hv
        simp only [Order.u16,htype,convertActionVendor,bind_eq_ok,convert_eq_ok,pure,Except.pure] at hout
        obtain ⟨_,⟨hin,rfl⟩,_,_,body,_,hout⟩ := hout
        injection hout with hout
        exact ⟨body,by rw [← hout,List.drop_zero],by omega⟩
      · simp only [Order.u16,htype,convert_eq_ok] at hout
        obtain ⟨hin,rfl⟩ := hout
        exact ⟨[],by rw [List.drop_zero,List.append_nil],by omega⟩
    obtain ⟨body,rfl,hin⟩ := hcells
    rw [List.length_append,length_cells hin] at hle
    omega

end Contained

section Unchecked

variable {m : Bytes} {head length : Nat}

theorem blocks_of_contained (hin : head + length ≤ m.length) (offset : Nat) (hle : offset ≤ length)
    (h : ∀ lens t, LengthWalk m head length offset lens t → t < length →
      ActionContained m (head + t) (length - t)) :
    ∃ blocks : List Bytes, slice m (head + offset) (length - offset) = blocks.flatten ∧
      ∀ b ∈ blocks, ∃ t, ContainedAction t b := by
  induction hn : length - offset using Nat.strong_induction_on generalizing offset with
  | _ n ih =>
    subst hn
    rcases hle.lt_or_eq with hlt | rfl
    · obtain ⟨⟨t,htype,hsize⟩,hfits⟩ := h [] offset (.nil offset) hlt
      have h8 := actionFields_size t
      obtain ⟨len,hlen⟩ : ∃ len, (be16 m (head + offset + 2)).toNat = len := ⟨_,rfl⟩
      rw [hlen] at hsize hfits
      obtain ⟨blocks,hblocks,hall⟩ := ih (length - (offset + len)) (by omega) (offset + len) (by omega)
        (fun lens u hw => h (len :: lens) u (.cons ⟨hlt,hlen⟩ hw)) rfl
      have hm : Holds m (head + offset) (slice m (head + offset) len) := holds_slice (by omega)
      have hsl : (slice m (head + offset) len).length = len := length_slice (by omega)
      refine ⟨slice m (head + offset) len :: blocks,?_,?_⟩
      · have hsplit : length - offset = len + (length - (offset + len)) := by omega
        rw [← Nat.add_assoc] at hblocks
        rw [List.flatten_cons,hsplit,slice_join rfl hblocks]
      · intro b hb
        rcases List.mem_cons.mp hb with rfl | hb
        · have h0 := hm.be16 (i := 0) (by omega)
          have h2 := hm.be16 (i := 2) (by omega)
          rw [Nat.add_zero] at h0
          exact ⟨t,by rw [← h0,htype],by rw [← h2,hlen,hsl],by rw [hsl]; exact hsize⟩
        · exact hall b hb
    · exact ⟨[],by simp [slice],by simp⟩

theorem contained_of_tiles {blocks : List Bytes} (hin : head + length ≤ m.length)
    (htiles : Tiles 2 (slice m head length) blocks) (hall : ∀ b ∈ blocks, Converted b) :
    ActionsContained m head length := by
  have hflat : Holds m head blocks.flatten := by
    rw [← htiles.whole]
    exact holds_slice hin
  have htotal : blocks.flatten.length = length := by rw [← htiles.whole,length_slice hin]
  intro lens offset hw hlt
  obtain ⟨_,b,hb,hlen⟩ := walk_on_blocks blocks id (fun _ => True)
    (fun s k _ hk => by rw [htotal]; exact hk.1)
    (fun s k b _ hk hb => by
      obtain ⟨hfit,hlen⟩ := htiles.lens b hb.mem
      rw [← hk.2,← hlen,← (hb.holds hflat).be16 hfit,id_eq])
    (fun s k _ _ _ => ⟨trivial,rfl⟩) hw trivial rfl ⟨hlt,rfl⟩
  obtain ⟨t,ht⟩ := contained_of_converted (htiles.lens b hb.mem).2 (hall b hb.mem)
  have hle := hb.le
  have h8 := ht.length_ge
  have htype := (hb.holds hflat).be16 (i := 0) (by omega)
  rw [Nat.add_zero,id_eq] at htype
  rw [htotal,id_eq] at hle
  exact ⟨⟨t,by rw [htype,ht.type],by rw [hlen]; exact ht.fits⟩,by rw [hlen]; omega⟩

end Unchecked

section PacketOut

variable {message : Bytes}

theorem packetOut_accepted (h : Yields (fun n => validatePacketOut n message) (.ok ())) :
    Headed message .packetOut 16 65535 ∧
      Yields (fun n => validateActions n message 16 (be16 message 14).toNat) (.ok ()) := by
  simp only [validatePacketOut] at h
  rw [yields_after (fun _ => settled_onlyIf (settled_validateActions _ _ _))] at h
  rcases h with ⟨length,hfields,h⟩ | ⟨e,_,_,h⟩
  · simp only [packetOutFields,bind_eq_ok,validateHeader_eq_ok,net16_eq_ok] at hfields
    obtain ⟨_,hh,_,_,_,_,_,⟨_,rfl⟩,hl⟩ := hfields
    injection hl with hl
    subst hl
    exact ⟨hh,(yields_onlyIf_actions _ _ _ _).mp h⟩
  · simp at h

theorem packetOut_handled (h : Yields (fun n => validatePacketOut n message) (.ok ()))
    (hfits : FitsByType message .packetOut) (handlers : Handlers) :
    ∃ events, Yields (fun n => handlePacketOut n handlers message) (.ok events) := by
  obtain ⟨hh,hacc⟩ := packetOut_accepted h
  obtain ⟨hin,hfit⟩ := hfits
  obtain ⟨actions,hwhole,hblocks⟩ := actions_of_accepted (be16 message 14).toNat_lt hin hacc hfit
  have hlen : actions.flatten.length = (be16 message 14).toNat := by
    rw [← hwhole,length_slice hin]
  refine ⟨_,handlePacketOut_yields hh.length hlen.symm hblocks ?_ (by omega) handlers⟩
  rw [← hwhole]
  exact holds_slice hin

theorem packetOut_iff (h : Yields (fun n => validatePacketOut n message) (.ok ())) :
    SafeByType message .packetOut ∧ TiledByType message .packetOut ↔
      FitsByType message .packetOut := by
  obtain ⟨hh,hacc⟩ := packetOut_accepted h
  have hlt := (be16 message 14).toNat_lt
  constructor
  · rintro ⟨_,hin,actions,htiles,_⟩
    exact ⟨hin,fit_of_tiles hlt hin htiles⟩
  · rintro ⟨hin,hfit⟩
    obtain ⟨actions,hwhole,hblocks⟩ := actions_of_accepted hlt hin hacc hfit
    refine ⟨fun handlers => ?_,hin,actions,tiles_actions hwhole hblocks,fun b hb => ?_⟩
    · obtain ⟨events,hevents⟩ := packetOut_handled h ⟨hin,hfit⟩ handlers
      exact (settled_handlePacketOut message handlers).safe hevents
    · exact converted_of_isAction (hblocks b hb)

end PacketOut

section FlowMod

variable {message : Bytes}

theorem flowMod_headed (h : Yields (fun n => validateFlowMod n message) (.ok ())) :
    Headed message .flowMod 72 65535 := by
  obtain ⟨_,n,hn⟩ := h
  simp only [validateFlowMod,flowModFields,bind_eq_ok,validateHeader_eq_ok] at hn
  obtain ⟨_,⟨_,hh,_⟩,_⟩ := hn
  exact hh

theorem flowMod_accepted (h : Yields (fun n => validateFlowMod n message) (.ok ()))
    (hcommand : be16 message 56 ≤ ofpfcDeleteStrict) :
    Yields (fun n => validateActions n message 72 (message.length - 72)) (.ok ()) := by
  have hh := flowMod_headed h
  simp only [validateFlowMod] at h
  rw [yields_after (fun _ => settled_onlyIf (settled_validateActions _ _ _))] at h
  rcases h with ⟨length,hfields,h⟩ | ⟨e,_,_,h⟩
  · simp only [flowModFields,flowModOptions,bind_eq_ok,net16_eq_ok,skipIf_eq_ok] at hfields
    obtain ⟨_,_,_,_,_,_,_,⟨_,rfl⟩,hrest⟩ := hfields
    rcases hrest with ⟨hundefined,_⟩ | ⟨_,_,_,_,_,_,_,_,_,_,⟨_,rfl⟩,hl⟩
    · exact absurd hcommand (UInt16.not_le.mpr hundefined)
    · injection hl with hl
      have hlen := hh.length
      rw [hlen,sub16_of_le hh.lower (by have := hh.upper; omega)] at hl
      subst hl
      exact (yields_onlyIf_actions _ _ _ _).mp h
  · simp at h

theorem flowMod_tiled (h : Yields (fun n => validateFlowMod n message) (.ok ()))
    (hfits : FlowModFits message) : ∃ actions : List Bytes,
      slice message 72 (message.length - 72) = actions.flatten ∧
        ∀ b ∈ actions, ∃ t, ContainedAction t b := by
  have hh := flowMod_headed h
  have hmin := hh.lower
  have hmax := hh.upper
  rw [FlowModFits] at hfits
  split at hfits
  · rename_i hcommand
    obtain ⟨actions,hwhole,hblocks⟩ := actions_of_accepted (by omega) (by omega)
      (flowMod_accepted h hcommand) hfits
    refine ⟨actions,hwhole,fun b hb => ?_⟩
    obtain ⟨t,ht⟩ := hblocks b hb
    exact ⟨t,ht.contained⟩
  · exact @blocks_of_contained message 72 (message.length - 72) (by omega) 0 (Nat.zero_le _) hfits

theorem flowMod_handled (h : Yields (fun n => validateFlowMod n message) (.ok ()))
    (hfits : FitsByType message .flowMod) (handlers : Handlers) :
    ∃ events, Yields (fun n => handleFlowMod n handlers message) (.ok events) := by
  have hh := flowMod_headed h
  have hmin := hh.lower
  obtain ⟨actions,hwhole,hall⟩ := flowMod_tiled h hfits
  have hlen : actions.flatten.length = message.length - 72 := by
    rw [← hwhole,length_slice (by omega)]
  obtain ⟨last,hreach,hzero⟩ := decodeActions_contained hall (s := ⟨message.length - 72,72,message,[]⟩)
    hlen.symm (by rw [← hwhole]; exact holds_slice (by simp only; omega))
  refine ⟨_,handleFlowMod_decoded hh.length hmin ((whileLoop_yields_ok
    (fun s => settled_const (decodeAction s)) _ _).mpr ⟨hreach,?_⟩) handlers⟩
  rw [hzero]
  rfl

theorem flowMod_iff (h : Yields (fun n => validateFlowMod n message) (.ok ())) :
    SafeByType message .flowMod ∧ TiledByType message .flowMod ↔ FitsByType message .flowMod := by
  have hh := flowMod_headed h
  have hmin := hh.lower
  have hmax := hh.upper
  constructor
  · rintro ⟨_,hin,actions,htiles,hall⟩
    rw [FitsByType,FlowModFits]
    split
    · exact fit_of_tiles (by omega) hin htiles
    · exact contained_of_tiles hin htiles hall
  · intro hfit
    obtain ⟨actions,hwhole,hall⟩ := flowMod_tiled h hfit
    refine ⟨fun handlers => ?_,by omega,actions,⟨hwhole,fun b hb => ?_⟩,fun b hb => ?_⟩
    · obtain ⟨events,hevents⟩ := flowMod_handled h hfit handlers
      exact (settled_handleFlowMod message handlers).safe hevents
    · obtain ⟨t,ht⟩ := hall b hb
      have := ht.length_ge
      exact ⟨by omega,ht.len⟩
    · obtain ⟨t,ht⟩ := hall b hb
      exact ht.converted

end FlowMod

section QueueConfig

variable {message : Bytes}

theorem queueConfig_accepted
    (h : Yields (fun n => validateQueueGetConfigReply n message) (.ok ())) :
    Headed message .queueGetConfigReply 24 65535 ∧ ∃ lens t,
      QueueWalk message ⟨message.length - 16,16,0⟩ lens t ∧ t.remaining = 0 ∧
        Yields (fun n => validatePacketQueues n message 16 lens.length) (.ok ()) := by
  simp only [validateQueueGetConfigReply] at h
  rw [yields_after (settled_queues message)] at h
  rcases h with ⟨body,hfields,h⟩ | ⟨e,_,_,h⟩
  · simp only [queueConfigFields,bind_eq_ok,validateHeader_eq_ok,net16_eq_ok] at hfields
    obtain ⟨_,hh,_,_,_,_,_,⟨_,rfl⟩,hbody⟩ := hfields
    injection hbody with hbody
    have hmin := hh.lower
    have hmax := hh.upper
    rw [hh.length,sub16_of_le (by omega) (by omega)] at hbody
    subst hbody
    rw [yields_bind (settled_queuesLoop message _) (settled_queuesAfter message)] at h
    rcases h with ⟨t,hloop,h⟩ | ⟨e,_,h⟩
    · obtain ⟨hreach,_⟩ := (whileLoop_yields_ok
        (fun s => settled_const (countQueue message s)) _ _).mp hloop
      obtain ⟨lens,hw⟩ := ((follows_queues message).reach _ _).mp hreach
      have hcount := queueWalk_queues hw
      simp only [Nat.zero_add] at hcount
      rw [yields_after (fun _ => settled_onlyIf (settled_validatePacketQueues _ _ _))] at h
      rcases h with ⟨_,hzero,h⟩ | ⟨e,_,_,h⟩
      · simp only [rejectIf_eq_ok,ne_eq,not_not] at hzero
        refine ⟨hh,lens,t,hw,hzero,?_⟩
        rw [hcount] at h
        by_cases hq : 0 < lens.length
        · simpa only [onlyIf,hq,if_true] using h
        · obtain hnil : lens.length = 0 := by omega
          rw [hnil]
          exact ⟨by simp,0,rfl⟩
      · simp at h
    · simp at h
  · simp at h

theorem queueConfig_iff (h : Yields (fun n => validateQueueGetConfigReply n message) (.ok ())) :
    SafeByType message .queueGetConfigReply ∧ TiledByType message .queueGetConfigReply ↔
      FitsByType message .queueGetConfigReply := by
  obtain ⟨hh,lens,t,hw,hzero,hok⟩ := queueConfig_accepted h
  have hmin := hh.lower
  have hmax := hh.upper
  constructor
  · rintro ⟨_,queues,htiles,hall⟩ ks s len hks he
    exact queuesFit_of_tiles (by omega) (by omega) htiles hall hks he
  · intro hfit
    obtain ⟨queues,hwhole,hblocks⟩ := queueBlocks_of_walk (by omega) hw hzero
      (by simp only; omega) hok hfit
    refine ⟨fun registered => ?_,queues.map Prod.fst,⟨hwhole,?_⟩,?_⟩
    · cases registered with
      | true =>
        exact (settled_handleQueueGetConfigReply message true).safe
          (handleQueueGetConfigReply_yields hh.length hblocks (by omega) hwhole)
      | false =>
        exact (settled_handleQueueGetConfigReply message false).safe
          ⟨by simp,0,handleQueueGetConfigReply_unregistered (by omega) 0⟩
    · intro b hb
      obtain ⟨q,hq,rfl⟩ := List.mem_map.mp hb
      have hfits := (hblocks q hq).fits
      exact ⟨by omega,(hblocks q hq).length⟩
    · intro b hb
      obtain ⟨q,hq,rfl⟩ := List.mem_map.mp hb
      exact ⟨(hblocks q hq).fits,q.2,tiles_properties (hblocks q hq).tail (hblocks q hq).blocks⟩

end QueueConfig

section Stats

variable {message : Bytes}

theorem exists_chunks {size : Nat} (k : Nat) {region : Bytes} (h : region.length = size * k) :
    ∃ bs : List Bytes, region = bs.flatten ∧ ∀ b ∈ bs, b.length = size := by
  induction k generalizing region with
  | zero => exact ⟨[],by simpa using h,by simp⟩
  | succ k ih =>
    rw [Nat.mul_succ] at h
    obtain ⟨bs,hbs,hall⟩ := ih (show (region.drop size).length = size * k by
      rw [List.length_drop]
      omega)
    refine ⟨region.take size :: bs,?_,?_⟩
    · rw [List.flatten_cons,← hbs,List.take_append_drop]
    · intro b hb
      rcases List.mem_cons.mp hb with rfl | hb
      · rw [List.length_take]
        omega
      · exact hall b hb

theorem statsReplyBody_eq_ok {body : Nat} (h : statsReplyBody message = .ok body) :
    Headed message .statsReply 12 65535 ∧ body = message.length - 12 := by
  simp only [statsReplyBody,bind_eq_ok,validateHeader_eq_ok,net16_eq_ok,rejectIf_eq_ok] at h
  obtain ⟨_,hh,_,_,_,_,_,⟨_,rfl⟩,hbody⟩ := h
  injection hbody with hbody
  have hmin := hh.lower
  have hmax := hh.upper
  rw [hh.length,sub16_of_le hmin (by omega)] at hbody
  exact ⟨hh,hbody.symm⟩

theorem validateSingleStatsReply_eq_ok {maxLength : Nat}
    (h : validateSingleStatsReply maxLength message = .ok ()) :
    Headed message .statsReply 12 maxLength := by
  simp only [validateSingleStatsReply,bind_eq_ok,validateHeader_eq_ok] at h
  obtain ⟨_,hh,_⟩ := h
  exact hh

theorem validateStatsEntries_eq_ok {size : Nat} {check : Bytes → Nat → Exec Unit}
    (h : validateStatsEntries size check message = .ok ()) :
    Headed message .statsReply 12 65535 ∧ (message.length - 12) % size = 0 := by
  simp only [validateStatsEntries,bind_eq_ok,rejectIf_eq_ok,not_not,ne_eq] at h
  obtain ⟨body,hbody,_,hmod,_⟩ := h
  obtain ⟨hh,rfl⟩ := statsReplyBody_eq_ok hbody
  exact ⟨hh,hmod⟩

theorem flowStats_accepted (h : Yields (fun n => validateFlowStatsReply n message) (.ok ())) :
    Headed message .statsReply 12 65535 ∧
      ∃ lens t, FlowWalk message (message.length - 12,12) lens t ∧ t.1 = 0 := by
  simp only [validateFlowStatsReply] at h
  rw [yields_after (fun _ => settled_bind (settled_whileLoop (settled_flowStatsStep message) _)
    (fun _ => settled_const _))] at h
  rcases h with ⟨body,hbody,h⟩ | ⟨e,_,_,h⟩
  · obtain ⟨hh,rfl⟩ := statsReplyBody_eq_ok hbody
    rw [yields_bind (settled_whileLoop (settled_flowStatsStep message) _)
      (fun _ => settled_const _)] at h
    rcases h with ⟨t,hloop,_⟩ | ⟨e,_,h⟩
    · obtain ⟨hreach,hstop⟩ := (whileLoop_yields_ok (settled_flowStatsStep message) _ _).mp hloop
      obtain ⟨lens,hw⟩ := ((follows_flowStats message).reach _ _).mp hreach
      exact ⟨hh,lens,t,hw,by simpa using hstop⟩
    · simp at h
  · simp at h

theorem statsReply_headed {t : StatsType}
    (h : Yields (fun n => validateStatsReplyByType n message t) (.ok ())) :
    Headed message .statsReply 12 65535 := by
  cases t with
  | flow => exact (flowStats_accepted h).1
  | desc =>
    obtain ⟨_,n,hn⟩ := h
    have hh := validateSingleStatsReply_eq_ok hn
    exact { hh with upper := hh.upper.trans (by decide) }
  | aggregate =>
    obtain ⟨_,n,hn⟩ := h
    have hh := validateSingleStatsReply_eq_ok hn
    exact { hh with upper := hh.upper.trans (by decide) }
  | table =>
    obtain ⟨_,n,hn⟩ := h
    simp only [validateStatsReplyByType,validateTableStatsReply] at hn
    exact (validateStatsEntries_eq_ok hn).1
  | port =>
    obtain ⟨_,n,hn⟩ := h
    simp only [validateStatsReplyByType,validatePortStatsReply] at hn
    exact (validateStatsEntries_eq_ok hn).1
  | queue =>
    obtain ⟨_,n,hn⟩ := h
    simp only [validateStatsReplyByType,validateQueueStatsReply] at hn
    exact (validateStatsEntries_eq_ok hn).1
  | vendor =>
    obtain ⟨_,n,hn⟩ := h
    simp only [validateStatsReplyByType,validateVendorStatsReply,bind_eq_ok] at hn
    obtain ⟨body,hbody,_⟩ := hn
    exact (statsReplyBody_eq_ok hbody).1

theorem handleStatsReply_safe (hh : Headed message .statsReply 12 65535)
    (h : 12 < message.length → ∀ heap, ∃ converted,
      Yields (fun n => ntohStatsBody n heap (be16 message 8) (message.drop 12)
        (message.length - 12)) (.ok converted)) (heap : Nat → UInt8) (registered : Bool) :
    Safe (fun n => handleStatsReply n heap registered message) := by
  cases registered with
  | false =>
    exact (settled_handleStatsReply message heap false).safe
      ⟨by simp,0,handleStatsReply_unregistered hh.lower 0 heap⟩
  | true =>
    rcases hh.lower.lt_or_eq with hmin | hmin
    · obtain ⟨converted,hy⟩ := h hmin heap
      exact (settled_handleStatsReply message heap true).safe
        (handleStatsReply_yields hh.length hmin hy)
    · exact (settled_handleStatsReply message heap true).safe
        ⟨by simp,0,handleStatsReply_empty hh.length hmin.symm 0 heap⟩

theorem ofpmsgRecvStatsreply_other (hmin : 12 ≤ message.length)
    (htype : be16 message 8 ≠ StatsType.flow.code) (lookup : UInt64 → Option UInt64)
    (translation : Bool) :
    Safe (fun n => ofpmsgRecvStatsreply lookup translation n message) := by
  refine (settled_ofpmsgRecvStatsreply message lookup translation).safe (a := message)
    ⟨by simp,0,?_⟩
  simp only [ofpmsgRecvStatsreply]
  rw [net16_inside (by omega),ok_bind,if_neg (fun hc => htype hc.1)]
  rfl

theorem ntohStatsBody_faults {type : UInt16} (heap : Nat → UInt8)
    (hh : Headed message .statsReply 12 65535) (hmin : 12 < message.length)
    (htype : be16 message 8 = type)
    (h : ∀ n, ntohStatsBody n heap type (message.drop 12) (message.length - 12) =
      .error .outOfBounds) : ¬ NoFault (fun n => handleStatsReply n heap true message) := by
  intro hno
  refine hno 0 ?_
  simp only [handleStatsReply_eq hh.length hh.lower,if_pos hmin,htype,h]
  rfl

theorem ntohStatsEntries_chunked {fs : List Field} (hsize : 8 ≤ size fs)
    (hmax : message.length ≤ 65535) (hmod : (message.length - 12) % size fs = 0) {dst : Bytes}
    (hdst : dst.length = message.length - 12) :
    ∃ converted, Yields (fun n => ntohStatsEntries fs n (message.drop 12) dst
      (message.length - 12)) (.ok converted) := by
  obtain ⟨k,hk⟩ := Nat.dvd_of_mod_eq_zero hmod
  have hlen : (message.drop 12).length = message.length - 12 := List.length_drop
  obtain ⟨bs,hbs,hall⟩ := exists_chunks k (hlen.trans hk)
  rw [← hlen] at hdst ⊢
  exact ⟨_,ntohStatsEntries_yields hsize hall hbs (by omega) hdst⟩

theorem length_xmalloc (heap : Nat → UInt8) (n : Nat) : (xmalloc heap n).length = n := by
  simp [xmalloc]

theorem statsEntries_safe {t : StatsType} (fs : List Field) (hsize : 8 ≤ size fs)
    (hh : Headed message .statsReply 12 65535) (htype : be16 message 8 = t.code) (ht : t ≠ .flow)
    (hmod : (message.length - 12) % size fs = 0)
    (hbody : ∀ n heap, ntohStatsBody n heap t.code (message.drop 12) (message.length - 12) =
      ntohStatsEntries fs n (message.drop 12) (xmalloc heap (message.length - 12))
        (message.length - 12)) : StatsReplySafe message := by
  refine ⟨handleStatsReply_safe hh fun _ heap => ?_,ofpmsgRecvStatsreply_other hh.lower ?_⟩
  · simp only [htype,hbody]
    exact ntohStatsEntries_chunked hsize hh.upper hmod (length_xmalloc heap _)
  · rw [htype]
    revert ht
    cases t <;> decide

theorem flowStats_safe (hh : Headed message .statsReply 12 65535)
    (htype : be16 message 8 = StatsType.flow.code) {entries : List (Bytes × List Bytes)}
    (hentries : message.drop 12 = concat Prod.fst entries)
    (hall : ∀ e ∈ entries, FlowBlock .net e.1 e.2) : StatsReplySafe message := by
  have hmin := hh.lower
  have hmax := hh.upper
  have hlen : (message.drop 12).length = message.length - 12 := List.length_drop
  refine ⟨handleStatsReply_safe hh fun _ heap => ?_,fun lookup translation => ?_⟩
  · rw [htype,← hlen]
    refine ⟨concat (fun e => flowImage .net e.1 e.2) entries,?_⟩
    exact ntohFlowEntries_yields hall hentries (by omega) (length_xmalloc heap _)
  · have hholds : Holds message 12 (concat Prod.fst entries) := by
      rw [← hentries,Holds,slice,List.take_length]
    obtain ⟨last,_,n,hn⟩ := rewriteCookies_yields lookup hall hholds
    rw [← hentries,hlen,Int.ofNat_sub hmin] at hn
    cases translation with
    | true =>
      refine (settled_ofpmsgRecvStatsreply message lookup true).safe (a := last.message)
        ⟨by simp,n,?_⟩
      simp only [ofpmsgRecvStatsreply]
      rw [net16_inside (by omega),ok_bind,if_pos ⟨htype,trivial⟩,net16_inside (by omega),
        ok_bind,hh.length]
      exact congrArg (fun r => r.bind fun last => .ok last.message) hn
    | false =>
      refine (settled_ofpmsgRecvStatsreply message lookup false).safe (a := message)
        ⟨by simp,0,?_⟩
      simp only [ofpmsgRecvStatsreply]
      rw [net16_inside (by omega),ok_bind,if_neg (by simp)]
      rfl

theorem flowStats_iff (htype : be16 message 8 = StatsType.flow.code)
    (h : Yields (fun n => validateFlowStatsReply n message) (.ok ())) :
    StatsReplySafe message ∧ TiledStats message .flow ↔ StatsFit message .flow := by
  obtain ⟨hh,lens,t,hw,hzero⟩ := flowStats_accepted h
  have hmin := hh.lower
  have hmax := hh.upper
  constructor
  · rintro ⟨_,entries,htiles,hall⟩ ks s len hks he
    exact flowFit_of_tiles (by omega) hmin htiles hall hks he
  · intro hfit
    obtain ⟨entries,hentries,hall⟩ := flowBlocks_of_walk (by omega) hw hzero (by simp only; omega)
      hfit
    refine ⟨flowStats_safe hh htype hentries hall,entries.map Prod.fst,⟨hentries,?_⟩,?_⟩
    · intro b hb
      obtain ⟨e,he,rfl⟩ := List.mem_map.mp hb
      have hfits := (hall e he).fits
      exact ⟨by omega,(hall e he).length⟩
    · intro b hb
      obtain ⟨e,he,rfl⟩ := List.mem_map.mp hb
      exact ⟨(hall e he).fits,e.2,tiles_actions (hall e he).tail (hall e he).blocks⟩

theorem aggregate_iff (htype : be16 message 8 = StatsType.aggregate.code)
    (h : validateAggregateStatsReply message = .ok ()) :
    StatsReplySafe message ↔ StatsFit message .aggregate := by
  have hsingle := validateSingleStatsReply_eq_ok h
  have hh : Headed message .statsReply 12 65535 :=
    { hsingle with upper := hsingle.upper.trans (by decide) }
  have hmin := hh.lower
  have hmax := hsingle.upper
  have hlen : (message.drop 12).length = message.length - 12 := List.length_drop
  constructor
  · rintro ⟨hsafe,_⟩
    by_contra hfit
    simp only [StatsFit,not_or] at hfit
    refine ntohStatsBody_faults (fun _ => 0) hh (by omega) htype (fun n => ?_)
      (hsafe (fun _ => 0) true).2
    show (ntohAggregateStats (message.drop 12) 0 >>= fun cells =>
      store (xmalloc (fun _ => 0) (message.length - 12)) 0 cells) = .error .outOfBounds
    by_cases hread : 20 ≤ message.length - 12
    · rw [ntohAggregateStats,convert_inside (by rw [hlen]; exact (by decide : 0 + _ ≤ 20).trans hread),
        ok_bind,store,if_neg]
      rw [length_xmalloc,length_cells (by
        simp only [List.drop_zero,hlen]
        exact (by decide : readEnd aggregateStatsFields ≤ 20).trans hread)]
      have : size aggregateStatsFields = 24 := by decide
      omega
    · rw [ntohAggregateStats,(convert_eq_error (e := .outOfBounds)).mpr ⟨?_,rfl⟩]
      · rfl
      · have : readEnd aggregateStatsFields = 20 := by decide
        omega
  · intro hfit
    refine ⟨handleStatsReply_safe hh fun hlt heap => ?_,ofpmsgRecvStatsreply_other hmin ?_⟩
    · have h36 : message.length = 36 := hfit.resolve_left (by omega)
      obtain ⟨out,hout⟩ : ∃ out, store (xmalloc heap (message.length - 12)) 0
          (cells aggregateStatsFields (message.drop 12)) = (.ok out : Exec Bytes) := by
        refine exists_store ?_
        rw [length_xmalloc,length_cells (by
          rw [hlen,h36]
          decide),h36]
        decide
      refine ⟨out,by simp,0,?_⟩
      simp only [htype]
      show (ntohAggregateStats (message.drop 12) 0 >>= fun cells =>
        store (xmalloc heap (message.length - 12)) 0 cells) = .ok out
      rw [ntohAggregateStats,convert_inside (by rw [hlen,h36]; decide),ok_bind,List.drop_zero]
      exact hout
    · rw [htype]
      decide

theorem vendor_iff (htype : be16 message 8 = StatsType.vendor.code)
    (hh : Headed message .statsReply 12 65535) :
    StatsReplySafe message ↔ StatsFit message .vendor := by
  have hmin := hh.lower
  have hlen : (message.drop 12).length = message.length - 12 := List.length_drop
  have hbody : ∀ n heap, ∃ out, out.length = message.length - 12 ∧
      ntohStatsBody n heap StatsType.vendor.code (message.drop 12) (message.length - 12) =
        (convert [.swap 4] (message.drop 12) 0 >>= store out 0) := by
    intro n heap
    obtain ⟨out,hout⟩ : ∃ out, store (xmalloc heap (message.length - 12)) 0
        (slice (message.drop 12) 0 (message.length - 12)) = (.ok out : Exec Bytes) := by
      refine exists_store ?_
      rw [length_xmalloc,length_slice (by omega)]
      omega
    refine ⟨out,by rw [length_of_store hout,length_xmalloc],?_⟩
    show (load (message.drop 12) 0 (message.length - 12) >>= fun copied =>
      store (xmalloc heap (message.length - 12)) 0 copied >>= fun out =>
        convert [.swap 4] (message.drop 12) 0 >>= store out 0) = _
    rw [load_ok (by omega),ok_bind,hout,ok_bind]
  constructor
  · rintro ⟨hsafe,_⟩
    by_contra hfit
    simp only [StatsFit,not_or] at hfit
    refine ntohStatsBody_faults (fun _ => 0) hh (by omega) htype (fun n => ?_)
      (hsafe (fun _ => 0) true).2
    obtain ⟨out,_,hbody⟩ := hbody n fun _ => 0
    rw [hbody,(convert_eq_error (e := .outOfBounds)).mpr ⟨?_,rfl⟩]
    · rfl
    · have : readEnd [.swap 4] = 4 := by decide
      omega
  · intro hfit
    refine ⟨handleStatsReply_safe hh fun hlt heap => ?_,ofpmsgRecvStatsreply_other hmin ?_⟩
    · have h16 : 16 ≤ message.length := hfit.resolve_left (by omega)
      obtain ⟨out,hout,hbody⟩ := hbody 0 heap
      have hread : readEnd [.swap 4] = 4 := by decide
      have hsize : size [.swap 4] = 4 := by decide
      obtain ⟨r,hr⟩ : ∃ r, store out 0 (cells [.swap 4] (message.drop 12)) =
          (.ok r : Exec Bytes) := by
        refine exists_store ?_
        rw [length_cells (by omega),hsize]
        omega
      refine ⟨r,by simp,0,?_⟩
      simp only [htype,hbody]
      rw [convert_inside (by omega),ok_bind,List.drop_zero,hr]
    · rw [htype]
      decide

theorem statsReply_iff_of_type {t : StatsType} (htype : be16 message 8 = t.code)
    (h : Yields (fun n => validateStatsReplyByType n message t) (.ok ())) :
    StatsReplySafe message ∧ TiledStats message t ↔ StatsFit message t := by
  have hh := statsReply_headed h
  cases t with
  | flow => exact flowStats_iff htype h
  | aggregate =>
    obtain ⟨_,n,hn⟩ := h
    simpa only [TiledStats,and_true] using aggregate_iff htype hn
  | vendor => simpa only [TiledStats,and_true] using vendor_iff htype hh
  | desc =>
    refine iff_of_true ⟨⟨handleStatsReply_safe hh fun _ heap => ?_,
      ofpmsgRecvStatsreply_other hh.lower (by rw [htype]; decide)⟩,trivial⟩ trivial
    rw [htype]
    exact ⟨message.drop 12,by simp,0,rfl⟩
  | table =>
    obtain ⟨_,n,hn⟩ := h
    simp only [validateStatsReplyByType,validateTableStatsReply] at hn
    have hmod := (validateStatsEntries_eq_ok hn).2
    exact iff_of_true ⟨statsEntries_safe tableStatsFields (by decide) hh htype (by decide)
      hmod fun _ _ => rfl,hmod⟩ trivial
  | port =>
    obtain ⟨_,n,hn⟩ := h
    simp only [validateStatsReplyByType,validatePortStatsReply] at hn
    have hmod := (validateStatsEntries_eq_ok hn).2
    exact iff_of_true ⟨statsEntries_safe portStatsFields (by decide) hh htype (by decide)
      hmod fun _ _ => rfl,hmod⟩ trivial
  | queue =>
    obtain ⟨_,n,hn⟩ := h
    simp only [validateStatsReplyByType,validateQueueStatsReply] at hn
    have hmod := (validateStatsEntries_eq_ok hn).2
    exact iff_of_true ⟨statsEntries_safe queueStatsFields (by decide) hh htype (by decide)
      hmod fun _ _ => rfl,hmod⟩ trivial

theorem statsReply_iff (h : Yields (fun n => validateStatsReply n message) (.ok ())) :
    SafeByType message .statsReply ∧ TiledByType message .statsReply ↔
      FitsByType message .statsReply := by
  simp only [validateStatsReply] at h
  rw [yields_after (fun _ => settled_dispatch _ _ (settled_validateStatsReplyByType message))] at h
  rcases h with ⟨type,htype,h⟩ | ⟨e,_,_,h⟩
  · obtain ⟨_,rfl⟩ := net16_eq_ok.mp htype
    obtain ⟨hne,n,hn⟩ := h
    obtain ⟨t,ht,hn⟩ := dispatch_eq_ok.mp hn
    have hiff := statsReply_iff_of_type (StatsType.code_of_ofCode ht) ⟨hne,n,hn⟩
    simpa only [SafeByType,TiledByType,FitsByType,ht,Option.some.injEq,forall_eq'] using hiff
  · simp at h

end Stats

theorem decoders_safe_of_type {message : Bytes} {t : OfpType}
    (h : Yields (fun n => validateByType n message t) (.ok ())) :
    SafeByType message t ∧ TiledByType message t ↔ FitsByType message t := by
  cases t with
  | packetOut => exact packetOut_iff h
  | flowMod => exact flowMod_iff h
  | statsReply => exact statsReply_iff h
  | queueGetConfigReply => exact queueConfig_iff h
  | _ => simp [SafeByType,TiledByType,FitsByType]

def DecodersSafe (message : Bytes) : Prop :=
  ∀ t, OfpType.ofCode (hostByte message 1) = some t → SafeByType message t ∧ TiledByType message t

def ElementsFitContainers (message : Bytes) : Prop :=
  ∀ t, OfpType.ofCode (hostByte message 1) = some t → FitsByType message t

theorem validated_decoders_safe_iff (message : Bytes)
    (h : Yields (fun n => validateOpenflowMessage n message) (.ok ())) :
    DecodersSafe message ↔ ElementsFitContainers message := by
  obtain ⟨hne,n,hn⟩ := h
  simp only [validateOpenflowMessage,bind_eq_ok,byteAt_eq_ok,dispatch_eq_ok] at hn
  obtain ⟨_,_,_,⟨_,rfl⟩,t,ht,hn⟩ := hn
  have hiff := decoders_safe_of_type (t := t) ⟨hne,n,hn⟩
  simpa only [DecodersSafe,ElementsFitContainers,ht,Option.some.injEq,forall_eq'] using hiff

def plainPacketOut : Bytes :=
  [1,13,0,24,0,0,0,0,0,0,0,1,0,1,0,8,0,0,0,8,0,2,0,0]

theorem validated_decoders_safe_packet_out :
    Yields (fun n => validateOpenflowMessage n plainPacketOut) (.ok ()) ∧
      (DecodersSafe plainPacketOut ↔ ElementsFitContainers plainPacketOut) :=
  have h : Yields (fun n => validateOpenflowMessage n plainPacketOut) (.ok ()) :=
    ⟨by simp,2,by decide⟩
  ⟨h,validated_decoders_safe_iff plainPacketOut h⟩

def shortAggregateReply : Bytes :=
  [1,17,0,20,0,0,0,0,0,2,0,0,0,0,0,0,0,0,0,0]

theorem validated_decoders_not_safe :
    Yields (fun n => validateOpenflowMessage n shortAggregateReply) (.ok ()) ∧
      ¬ DecodersSafe shortAggregateReply := by
  refine ⟨⟨by simp,0,by decide⟩,fun h => ?_⟩
  exact ((h .statsReply (by decide)).1.1 (fun _ => 0) true).2 0 (by decide)

end Trema.OpenFlow
