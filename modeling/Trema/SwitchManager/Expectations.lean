import Trema.SwitchManager.ChannelReads
import Trema.SwitchManager.Frames

namespace Trema.SwitchManager

open Library
open OpenFlow

namespace SwitchInfo

variable {d : SwitchInfo} {message : Bytes} {outcome : Outcome} {fuel : Nat} {env : Surroundings}

section Returns

variable (hsending : d.sending = true)

include hsending

theorem ret_sendToSecureChannel (h : d.sendToSecureChannel message = .ok outcome) : outcome.ret = 0 := by
  rw [sendToSecureChannel] at h
  obtain ⟨_,_,h⟩ := bind_eq_ok.mp h
  rw [if_pos hsending] at h
  injection h with h
  rw [← h]

theorem ret_sendGenerated {create : UInt32 → Exec Bytes} (h : d.sendGenerated create = .ok outcome) :
    outcome.ret = 0 := by
  rw [sendGenerated] at h
  obtain ⟨message,_,h⟩ := bind_eq_ok.mp h
  have hsame : d.withXid.sending = true := hsending
  exact ret_sendToSecureChannel hsame h

theorem ret_denyOnStartup (h : d.denyOnStartup = .ok outcome) : outcome.ret = 0 := by
  rw [denyOnStartup] at h
  split at h
  · exact ret_sendGenerated hsending h
  · injection h with h
    rw [← h]

theorem ret_hello (h : d.switchEventRecvHello = .ok outcome) : outcome.ret = 0 := by
  rw [switchEventRecvHello] at h
  split at h
  · obtain ⟨denied,hdenied,h⟩ := bind_eq_ok.mp h
    have hunset := advances_unset (d := d) .timeoutHello
    have hfirst := hunset.trans (advances_denyOnStartup hdenied)
    have hzero := ret_denyOnStartup (hunset.sending.trans hsending) hdenied
    rw [if_neg (by rw [hzero]; decide)] at h
    obtain ⟨asked,hasked,h⟩ := bind_eq_ok.mp h
    have hzero' := ret_sendGenerated (hfirst.sending.trans hsending) hasked
    rw [if_neg (by rw [hzero']; decide)] at h
    injection h with h
    rw [← h]
  · injection h with h
    rw [← h]

theorem ret_resetSwitch (h : d.resetSwitch = .ok outcome) : outcome.ret = 0 := by
  rw [resetSwitch] at h
  obtain ⟨configured,hconfigured,h⟩ := bind_eq_ok.mp h
  have hfirst := advances_sendGenerated hconfigured
  have hzero := ret_sendGenerated hsending hconfigured
  rw [if_neg (by rw [hzero]; decide)] at h
  split at h
  · exact ret_sendGenerated (hfirst.sending.trans hsending) h
  · injection h with h
    rw [← h]

theorem ret_featuresreply {datapathId : UInt64}
    (hstate : d.state = .completed ∨
      d.state = .waitFeaturesReply ∧ env.unique = true ∧ env.switchListRequested = true)
    (h : d.switchEventRecvFeaturesreply env datapathId = .ok outcome) : outcome.ret = 0 := by
  rw [switchEventRecvFeaturesreply] at h
  rcases hstate with hstate | ⟨hstate,hunique,hlist⟩
  · rw [hstate] at h
    injection h with h
    rw [← h]
  · rw [hstate] at h
    simp only at h
    rw [if_neg (by rw [hunique]; decide)] at h
    obtain ⟨reset,hreset,h⟩ := bind_eq_ok.mp h
    have hsame : (switchUnsetTimeout { d with datapathId := datapathId, state := .completed }
        .timeoutFeaturesReply).sending = true := by
      rw [(advances_unset _).sending]
      exact hsending
    have hzero := ret_resetSwitch hsame hreset
    rw [if_neg (by rw [hzero]; decide),hlist] at h
    injection h with h
    rw [← h]
    rfl

end Returns

theorem ret_answer (h : d.answer message = .ok outcome) : outcome.ret = 0 := by
  rw [answer] at h
  obtain ⟨sent,_,h⟩ := bind_eq_ok.mp h
  injection h with h
  rw [← h]

theorem ret_error (hstate : d.state = .completed) (h : d.ofpmsgRecvError message = .ok outcome) :
    outcome.ret = 0 := by
  have hzero : d.switchEventRecvError = 0 := if_pos hstate
  rw [ofpmsgRecvError] at h
  obtain ⟨type,_,h⟩ := bind_eq_ok.mp h
  rw [if_neg (by rw [hzero]; decide)] at h
  split at h
  · obtain ⟨length,_,h⟩ := bind_eq_ok.mp h
    obtain ⟨received,_,h⟩ := bind_eq_ok.mp h
    cases received with
    | none =>
      injection h with h
      rw [← h]
    | some received => exact ret_answer h
  · exact ret_answer h

theorem ret_flowremoved (h : d.ofpmsgRecvFlowremoved message = .ok outcome) : outcome.ret = 0 := by
  rw [ofpmsgRecvFlowremoved] at h
  obtain ⟨cookie,_,h⟩ := bind_eq_ok.mp h
  split at h
  · injection h with h
    rw [← h]
  · split at h
    · injection h with h
      rw [← h]
      rfl
    · cases hfound : d.cookieTable.lookupCookieEntryByCookie cookie with
      | none =>
        rw [hfound] at h
        injection h with h
        rw [← h]
      | some id =>
        rw [hfound] at h
        obtain ⟨entry,_,h⟩ := bind_eq_ok.mp h
        obtain ⟨delivered,_,h⟩ := bind_eq_ok.mp h
        obtain ⟨deleted,_,h⟩ := bind_eq_ok.mp h
        injection h with h
        rw [← h]

theorem ret_statsreply (hh : Headed message .statsReply 12 65535) {entry : XidEntry Bytes}
    (hknown : d.xidTable.lookupXidEntry (be32 message 4) = some entry)
    (h : d.ofpmsgRecvStatsreply fuel message = .ok outcome) : outcome.ret = 0 := by
  have hmin := hh.lower
  simp only [ofpmsgRecvStatsreply] at h
  obtain ⟨m,hm,h⟩ := bind_eq_ok.mp h
  obtain ⟨hlen,hxid,_⟩ := translated_header hh hm
  rw [net32_inside (by omega),ok_bind,hxid,hknown] at h
  obtain ⟨reply,_,h⟩ := bind_eq_ok.mp h
  obtain ⟨flags,_,h⟩ := bind_eq_ok.mp h
  split at h
  · injection h with h
    rw [← h]
  · injection h with h
    rw [← h]

variable (d message env) in
-- A valid message that the daemon can make something of in its state.
def ExpectedType : OfpType → Prop
  | .error => d.state = .completed
  | .featuresReply => d.state = .completed ∨
      d.state = .waitFeaturesReply ∧ env.unique = true ∧ env.switchListRequested = true
  | .statsReply => (d.xidTable.lookupXidEntry (be32 message 4)).isSome = true
  | _ => True

variable (d message env) in
structure Expected : Prop where
  accepted : Accepts message
  fitting : ∀ t, OfpType.ofCode (hostByte message 1) = some t → d.ExpectedType message env t

theorem ret_dispatch (hsending : d.sending = true) {t : OfpType} (hh : Headed message t (minLength t) 65535)
    (ht : d.ExpectedType message env t) (h : d.dispatchMessage fuel env message t = .ok outcome) :
    outcome.ret = 0 := by
  cases t with
  | hello => exact ret_hello hsending h
  | error => exact ret_error ht h
  | echoRequest =>
    rw [dispatchMessage,ofpmsgRecvEchorequest] at h
    obtain ⟨body,_,h⟩ := bind_eq_ok.mp h
    obtain ⟨xid,_,h⟩ := bind_eq_ok.mp h
    rw [ofpmsgSendEchoreply] at h
    obtain ⟨reply,_,h⟩ := bind_eq_ok.mp h
    exact ret_sendToSecureChannel hsending h
  | echoReply =>
    obtain ⟨received,hreceived,hzero,_⟩ := d.switchEventRecvEchoreply_ok message
    rw [dispatchMessage,ofpmsgRecvEchoreply,hreceived,ok_bind,if_neg (by rw [hzero]; decide)] at h
    exact ret_answer h
  | featuresReply =>
    rw [dispatchMessage,ofpmsgRecvFeaturesreply] at h
    obtain ⟨datapathId,_,h⟩ := bind_eq_ok.mp h
    obtain ⟨received,hreceived,h⟩ := bind_eq_ok.mp h
    have hzero := ret_featuresreply hsending ht hreceived
    rw [if_neg (by rw [hzero]; decide)] at h
    exact ret_answer h
  | getConfigReply => exact ret_answer h
  | barrierReply => exact ret_answer h
  | queueGetConfigReply => exact ret_answer h
  | flowRemoved => exact ret_flowremoved h
  | statsReply =>
    obtain ⟨entry,hentry⟩ := Option.isSome_iff_exists.mp ht
    exact ret_statsreply hh hentry h
  | vendor =>
    injection h with h
    rw [← h]
    rfl
  | packetIn =>
    injection h with h
    rw [← h]
    rfl
  | portStatus =>
    injection h with h
    rw [← h]
    rfl
  | _ => exact absurd h (by simp [dispatchMessage])

theorem ret_expected (hsending : d.sending = true) (he : d.Expected message env)
    (h : d.ofpmsgRecv fuel env message = .ok outcome) : outcome.ret = 0 := by
  obtain ⟨t,ht,_⟩ := he.accepted.type
  obtain ⟨_,n,hn⟩ := (ofpmsgRecv_accepted he.accepted ht env _).mp ⟨by simp,fuel,h⟩
  exact ret_dispatch hsending (headed_of_type he.accepted ht) (he.fitting t ht) hn

end SwitchInfo

end Trema.SwitchManager
