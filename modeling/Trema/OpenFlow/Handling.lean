import Trema.OpenFlow.DecodeSafety
import Trema.OpenFlow.Verdict

namespace Trema.OpenFlow

open Library Layout

section Sizes

def minLength : OfpType → Nat
  | .error => 12
  | .vendor => 12
  | .featuresReply => 32
  | .flowRemoved => 88
  | .flowMod => 72
  | .statsReply => 12
  | _ => 8

theorem headed_weaken {message : Bytes} {t : OfpType} {lo hi lo' : Nat} (h : Headed message t lo hi)
    (hlo : lo' ≤ lo) (hhi : hi ≤ 65535) : Headed message t lo' 65535 :=
  { h with lower := hlo.trans h.lower, upper := h.upper.trans hhi }

theorem headed_of_sized {message : Bytes} {t : OfpType} {lo : Nat}
    (h : validateSized t lo message = .ok ()) : Headed message t lo 65535 := by
  simp only [validateSized,bind_eq_ok,validateHeader_eq_ok] at h
  obtain ⟨_,hh,_⟩ := h
  exact hh

theorem headed_of_statsReply {message : Bytes}
    (h : Yields (fun n => validateStatsReply n message) (.ok ())) :
    Headed message .statsReply 12 65535 := by
  obtain ⟨hne,n,hn⟩ := h
  simp only [validateStatsReply,bind_eq_ok,net16_eq_ok,dispatch_eq_ok] at hn
  obtain ⟨_,_,t,_,hn⟩ := hn
  exact statsReply_headed ⟨hne,n,hn⟩

theorem headed_of_statsType {message : Bytes} {t : StatsType}
    (h : validateStatsRequestByType message t = .ok ()) :
    ∃ lo hi, 12 ≤ lo ∧ hi ≤ 65535 ∧ Headed message .statsRequest lo hi := by
  cases t with
  | desc => exact ⟨12,12,le_rfl,by decide,headed_of_statsRequest h⟩
  | table => exact ⟨12,12,le_rfl,by decide,headed_of_statsRequest h⟩
  | vendor => exact ⟨16,65535,by decide,le_rfl,headed_of_statsRequest h⟩
  | _ =>
    simp only [validateStatsRequestByType,validateFlowStatsRequest,validateAggregateStatsRequest,
      validateFlowStatsRequestOf,validatePortStatsRequest,validateQueueStatsRequest,bind_eq_ok] at h
    obtain ⟨_,h,_⟩ := h
    exact ⟨_,_,by decide,by decide,headed_of_statsRequest h⟩

theorem headed_of_accepted {message : Bytes} {t : OfpType}
    (h : Yields (fun n => validateByType n message t) (.ok ())) :
    Headed message t (minLength t) 65535 := by
  cases t with
  | packetOut => exact headed_weaken (packetOut_accepted h).1 (by decide) le_rfl
  | flowMod => exact flowMod_headed h
  | statsReply => exact headed_of_statsReply h
  | queueGetConfigReply => exact headed_weaken (queueConfig_accepted h).1 (by decide) le_rfl
  | echoRequest => exact headed_of_sized h.2.choose_spec
  | echoReply => exact headed_of_sized h.2.choose_spec
  | vendor => exact headed_of_sized h.2.choose_spec
  | hello => exact headed_weaken (validateHeader_eq_ok.mp h.2.choose_spec) le_rfl (by decide)
  | error => exact validateHeader_eq_ok.mp h.2.choose_spec
  | featuresRequest =>
    exact headed_weaken (validateHeader_eq_ok.mp h.2.choose_spec) le_rfl (by decide)
  | getConfigRequest =>
    exact headed_weaken (validateHeader_eq_ok.mp h.2.choose_spec) le_rfl (by decide)
  | barrierRequest =>
    exact headed_weaken (validateHeader_eq_ok.mp h.2.choose_spec) le_rfl (by decide)
  | barrierReply =>
    exact headed_weaken (validateHeader_eq_ok.mp h.2.choose_spec) le_rfl (by decide)
  | statsRequest =>
    obtain ⟨_,n,hn⟩ := h
    simp only [validateByType,validateStatsRequest,bind_eq_ok,net16_eq_ok,dispatch_eq_ok] at hn
    obtain ⟨_,_,s,_,hn⟩ := hn
    obtain ⟨lo,hi,hlo,hhi,hh⟩ := headed_of_statsType hn
    exact headed_weaken hh ((by decide : minLength .statsRequest ≤ 12).trans hlo) hhi
  | _ =>
    obtain ⟨_,n,hn⟩ := h
    simp only [validateByType,validateFeaturesReply,validateGetConfigReply,validateSetConfig,
      validateSwitchConfig,validatePacketIn,validateFlowRemoved,validatePortStatus,validatePortMod,
      validateQueueGetConfigRequest,bind_eq_ok,validateHeader_eq_ok] at hn
    obtain ⟨_,hh,_⟩ := hn
    exact headed_weaken hh (by decide) (by decide)

theorem headed_of_type {message : Bytes} (h : Accepts message) {t : OfpType}
    (ht : OfpType.ofCode (hostByte message 1) = some t) : Headed message t (minLength t) 65535 := by
  obtain ⟨s,hs,hvalid⟩ := h.type
  rw [ht] at hs
  rw [Option.some.inj hs]
  exact headed_of_accepted hvalid

end Sizes

section Handling

variable {message : Bytes} (handlers : Handlers)

theorem convertInPlace_ok (fs : List Field) (b : Bytes) (p : Nat) (h : p + size fs ≤ b.length) :
    ∃ b', convertInPlace fs b p = .ok b' ∧ b'.length = b.length := by
  have hread := readEnd_le_size fs
  have hlen : (cells fs (b.drop p)).length = size fs := length_cells (by rw [List.length_drop]; omega)
  have hstore : convertInPlace fs b p =
      .ok (b.take p ++ cells fs (b.drop p) ++ b.drop (p + (cells fs (b.drop p)).length)) := by
    rw [convertInPlace,convert_inside (by omega),ok_bind]
    exact store_ok (by omega)
  refine ⟨_,hstore,?_⟩
  simp only [List.length_append,List.length_take,List.length_drop]
  omega

theorem matchRequestBody_ok {body : Bytes} (h : body.length = 44) : ∃ b, (do
    let body ← convertInPlace matchFields body 0
    convertInPlace [.swap 2] body 42) = .ok b := by
  have hsize : size matchFields = 40 := by decide
  have hport : size [.swap 2] = 2 := by decide
  obtain ⟨b,hb,hlen⟩ := convertInPlace_ok matchFields body 0 (by omega)
  obtain ⟨b',hb',_⟩ := convertInPlace_ok [.swap 2] b 42 (by omega)
  exact ⟨b',by rw [hb,ok_bind,hb']⟩

theorem statsRequestBody_ok {t : StatsType} (h : validateStatsRequestByType message t = .ok ())
    {body : Bytes} (hbody : body.length = message.length - 12) (hpos : 0 < body.length) :
    ∃ b, ntohStatsRequestBody t.code body = .ok b := by
  rw [ntohStatsRequestBody,StatsType.ofCode_code]
  cases t with
  | desc => exact ⟨body,rfl⟩
  | table => exact ⟨body,rfl⟩
  | queue => exact ⟨body,rfl⟩
  | flow =>
    simp only [validateStatsRequestByType,validateFlowStatsRequest,validateFlowStatsRequestOf,
      bind_eq_ok] at h
    obtain ⟨_,h,_⟩ := h
    have hh := headed_of_statsRequest h
    exact matchRequestBody_ok (by rw [hbody]; have := hh.lower; have := hh.upper; omega)
  | aggregate =>
    simp only [validateStatsRequestByType,validateAggregateStatsRequest,validateFlowStatsRequestOf,
      bind_eq_ok] at h
    obtain ⟨_,h,_⟩ := h
    have hh := headed_of_statsRequest h
    exact matchRequestBody_ok (by rw [hbody]; have := hh.lower; have := hh.upper; omega)
  | port =>
    simp only [validateStatsRequestByType,validatePortStatsRequest,bind_eq_ok] at h
    obtain ⟨_,h,_⟩ := h
    have hh := headed_of_statsRequest h
    have hsize : size [.swap 2] = 2 := by decide
    have hlower := hh.lower
    obtain ⟨b,hb,_⟩ := convertInPlace_ok [.swap 2] body 0 (by omega)
    exact ⟨b,hb⟩
  | vendor =>
    have hh := headed_of_statsRequest h
    have hsize : size [.swap 4] = 4 := by decide
    have hlower := hh.lower
    obtain ⟨b,hb,_⟩ := convertInPlace_ok [.swap 4] body 0 (by omega)
    exact ⟨b,hb⟩

theorem handleStatsRequest_ok (h : validateStatsRequest message = .ok ()) :
    ∃ events, handleStatsRequest handlers message = .ok events := by
  simp only [validateStatsRequest,bind_eq_ok,net16_eq_ok,dispatch_eq_ok] at h
  obtain ⟨_,⟨_,rfl⟩,t,ht,h⟩ := h
  obtain ⟨lo,hi,hlo,_,hh⟩ := headed_of_statsType h
  have hlower := hh.lower
  have hlen := hh.length
  rw [handleStatsRequest,net32_inside (by omega),ok_bind,net16_inside (by omega),ok_bind,
    net16_inside (by omega),ok_bind,net16_inside (by omega),ok_bind]
  simp only [hlen,subSize_of_le (show 12 ≤ message.length by omega)]
  split
  · rename_i hpos
    have hbody : (slice message 12 (message.length - 12)).length = message.length - 12 :=
      length_slice (by omega)
    obtain ⟨b,hb⟩ := statsRequestBody_ok h hbody (by omega)
    rw [← StatsType.code_of_ofCode ht] at hb
    rw [load_ok (by omega),ok_bind,hb]
    exact ⟨_,rfl⟩
  · exact ⟨_,rfl⟩

theorem bodyAfter_ok {head : Nat} (length : Nat) (h : head ≤ message.length) :
    ∃ body, bodyAfter message head length = .ok body := by
  rw [bodyAfter]
  split
  · rw [removeFrontBuffer,abortIf,if_neg (by omega)]
    exact ⟨_,rfl⟩
  · exact ⟨_,rfl⟩

theorem handleError_ok (h : 12 ≤ message.length) : ∃ events, handleError handlers message = .ok events := by
  rw [handleError,net32_inside (by omega),ok_bind,net16_inside (by omega),ok_bind,
    net16_inside (by omega),ok_bind,removeFrontBuffer,abortIf,if_neg (by omega)]
  exact ⟨_,rfl⟩

theorem handleEcho_ok (t : OfpType) (event : UInt32 → Option Bytes → SwitchEvent) (h : 8 ≤ message.length) :
    ∃ events, handleEcho t event handlers message = .ok events := by
  rw [handleEcho,net32_inside (by omega),ok_bind,net16_inside (by omega),ok_bind]
  split
  · obtain ⟨body,hbody⟩ := bodyAfter_ok (subSize (be16 message 2).toNat 8) h
    rw [hbody]
    exact ⟨_,rfl⟩
  · exact ⟨_,rfl⟩

theorem handleVendor_ok (h : 12 ≤ message.length) : ∃ events, handleVendor handlers message = .ok events := by
  rw [handleVendor,net32_inside (by omega),ok_bind,net32_inside (by omega),ok_bind,
    net16_inside (by omega),ok_bind]
  split
  · obtain ⟨body,hbody⟩ := bodyAfter_ok (sub16 (be16 message 2).toNat 12) h
    rw [hbody]
    exact ⟨_,rfl⟩
  · exact ⟨_,rfl⟩

theorem handleBare_ok (t : OfpType) (event : UInt32 → SwitchEvent) (h : 8 ≤ message.length) :
    ∃ events, handleBare t event handlers message = .ok events := by
  rw [handleBare,net32_inside (by omega)]
  exact ⟨_,rfl⟩

theorem handleSetConfig_ok (h : validateSetConfig message = .ok ()) :
    ∃ events, handleSetConfig handlers message = .ok events := by
  simp only [validateSetConfig,validateSwitchConfig,bind_eq_ok,validateHeader_eq_ok] at h
  obtain ⟨_,hh,_⟩ := h
  have hlower := hh.lower
  rw [handleSetConfig,net32_inside (by omega),ok_bind,net16_inside (by omega),ok_bind,
    net16_inside (by omega)]
  exact ⟨_,rfl⟩

theorem handlePortMod_ok (h : validatePortMod message = .ok ()) :
    ∃ events, handlePortMod handlers message = .ok events := by
  simp only [validatePortMod,bind_eq_ok,validateHeader_eq_ok] at h
  obtain ⟨_,hh,_⟩ := h
  have hlower := hh.lower
  rw [handlePortMod,net32_inside (by omega),ok_bind,net16_inside (by omega),ok_bind,load_ok (by omega),
    ok_bind,net32_inside (by omega),ok_bind,net32_inside (by omega),ok_bind,net32_inside (by omega)]
  exact ⟨_,rfl⟩

theorem handleQueueGetConfigRequest_ok (h : validateQueueGetConfigRequest message = .ok ()) :
    ∃ events, handleQueueGetConfigRequest handlers message = .ok events := by
  simp only [validateQueueGetConfigRequest,bind_eq_ok,validateHeader_eq_ok] at h
  obtain ⟨_,hh,_⟩ := h
  have hlower := hh.lower
  rw [handleQueueGetConfigRequest,net32_inside (by omega),ok_bind,net16_inside (by omega)]
  exact ⟨_,rfl⟩

theorem handleHello_ok (h : 8 ≤ message.length) : ∃ events, handleHello handlers message = .ok events := by
  rw [handleHello,net32_inside (by omega),ok_bind,byteAt_inside (by omega)]
  exact ⟨_,rfl⟩

-- The handlers of the types but two return whatever the fuel is.
def Plain (t : OfpType) : Prop := t ≠ .packetOut ∧ t ≠ .flowMod

theorem handlePlain_ok {t : OfpType} (hplain : Plain t)
    (h : Yields (fun n => validateByType n message t) (.ok ())) :
    (∀ n, handleByType n handlers message t = none) ∨
      ∃ events, ∀ n, handleByType n handlers message t = some (.ok events) := by
  have hlower := (headed_of_accepted h).lower
  have hfits := (headed_of_accepted h).fits
  have hreturns : ∀ {r : Exec (List SwitchEvent)}, (∃ events, r = .ok events) →
      ∃ events, ∀ _ : Nat, some r = some (.ok events) := by
    rintro r ⟨events,rfl⟩
    exact ⟨events,fun _ => rfl⟩
  cases t with
  | packetOut => exact absurd rfl hplain.1
  | flowMod => exact absurd rfl hplain.2
  | hello => exact .inr (hreturns (handleHello_ok handlers hfits))
  | error => exact .inr (hreturns (handleError_ok handlers hlower))
  | echoRequest => exact .inr (hreturns (handleEcho_ok handlers _ _ hfits))
  | echoReply => exact .inr (hreturns (handleEcho_ok handlers _ _ hfits))
  | vendor => exact .inr (hreturns (handleVendor_ok handlers hlower))
  | featuresRequest => exact .inr (hreturns (handleBare_ok handlers _ _ hfits))
  | getConfigRequest => exact .inr (hreturns (handleBare_ok handlers _ _ hfits))
  | barrierRequest => exact .inr (hreturns (handleBare_ok handlers _ _ hfits))
  | setConfig => exact .inr (hreturns (handleSetConfig_ok handlers h.2.choose_spec))
  | portMod => exact .inr (hreturns (handlePortMod_ok handlers h.2.choose_spec))
  | statsRequest => exact .inr (hreturns (handleStatsRequest_ok handlers h.2.choose_spec))
  | queueGetConfigRequest =>
    exact .inr (hreturns (handleQueueGetConfigRequest_ok handlers h.2.choose_spec))
  | _ => exact .inl fun _ => rfl

theorem handleByType_ok {t : OfpType} (h : Yields (fun n => validateByType n message t) (.ok ()))
    (hfits : ¬ Plain t → FitsByType message t) : (∀ n, handleByType n handlers message t = none) ∨
      ∃ events k, ∀ n, k ≤ n → handleByType n handlers message t = some (.ok events) := by
  by_cases hplain : Plain t
  · refine (handlePlain_ok handlers hplain h).imp_right ?_
    rintro ⟨events,hevents⟩
    exact ⟨events,0,fun n _ => hevents n⟩
  · right
    have hfits := hfits hplain
    rw [Plain,← not_or,not_not] at hplain
    rcases hplain with rfl | rfl
    · obtain ⟨events,hevents⟩ := packetOut_handled h hfits handlers
      obtain ⟨k,hk⟩ := (settled_handlePacketOut message handlers).eventually hevents
      exact ⟨events,k,fun n hn => congrArg some (hk n hn)⟩
    · obtain ⟨events,hevents⟩ := flowMod_handled h hfits handlers
      obtain ⟨k,hk⟩ := (settled_handleFlowMod message handlers).eventually hevents
      exact ⟨events,k,fun n hn => congrArg some (hk n hn)⟩

-- What the switch side needs of a message: that validation ends and stays inside, and that a packet_out or a
-- flow_mod holds its actions.
structure Handleable (message : Bytes) : Prop where
  ends : ¬ Endless message
  inside : ReadsInside message
  fits : Accepts message → ∀ t, OfpType.ofCode (hostByte message 1) = some t → ¬ Plain t → FitsByType message t

theorem handleOpenflowMessage_ok (hm : 8 ≤ message.length) (h : Handleable message) :
    ∃ handled k, (∀ n, k ≤ n → handleOpenflowMessage n handlers message = .ok handled) ∧
      ∀ error, Rejects message error → handled = ⟨false,[]⟩ := by
  have hlong : ¬ message.length < 8 := by omega
  rcases (judged_iff hm).mpr ⟨h.ends,h.inside⟩ with haccepted | ⟨error,hrejected⟩
  · obtain ⟨t,ht,hvalid⟩ := haccepted.type
    obtain ⟨n₀,hn₀⟩ := (settled_validateOpenflowMessage message).eventually haccepted
    have htype : (byteAt message 1 : Exec UInt8) = .ok (hostByte message 1) := byteAt_inside (by omega)
    have hnever : ∀ error, ¬ Rejects message error := haccepted.not_rejects
    rcases handleByType_ok handlers hvalid (h.fits haccepted t ht) with hnone | ⟨events,k,hk⟩
    · refine ⟨⟨false,[]⟩,n₀,fun n hn => ?_,fun error hr => absurd hr (hnever error)⟩
      simp only [handleOpenflowMessage,abortIf,if_neg hlong,ok_bind,hn₀ n hn,htype,ht,Option.bind_some,
        hnone]
      rfl
    · refine ⟨⟨true,events⟩,max n₀ k,fun n hn => ?_,fun error hr => absurd hr (hnever error)⟩
      simp only [handleOpenflowMessage,abortIf,if_neg hlong,ok_bind,hn₀ n (le_of_max_le_left hn),htype,ht,
        Option.bind_some,hk n (le_of_max_le_right hn)]
      rfl
  · obtain ⟨n₀,hn₀⟩ := (settled_validateOpenflowMessage message).eventually hrejected
    refine ⟨⟨false,[]⟩,n₀,fun n hn => ?_,fun _ _ => rfl⟩
    simp only [handleOpenflowMessage,abortIf,if_neg hlong,ok_bind,hn₀ n hn]
    rfl

end Handling

end Trema.OpenFlow
