import Trema.SwitchManager.Dispatch
import Trema.SwitchManager.Switch

namespace Trema.SwitchManager

open Library
open OpenFlow

def Output.Terminal : Output → Prop
  | .toService _ tag _ _ => tag = .disconnected ∨ tag = .faildToConnect
  | .toSwitch _ => False

namespace SwitchInfo

-- What a handler leaves as it is: the connection, the state-notify list, and what has gone out so far, to which it
-- adds nothing that tells of the end of the connection.
structure Advances (d d' : SwitchInfo) : Prop where
  sending : d'.sending = d.sending
  stopped : d'.stopped = d.stopped
  services : d'.stateServices = d.stateServices
  live : d'.state = .disconnected ↔ d.state = .disconnected
  completed : d.state = .completed → d'.state = .completed
  outputs : ∃ new, d'.outputs = d.outputs ++ new ∧ ∀ o ∈ new, ¬ o.Terminal

variable {d d' d'' : SwitchInfo} {message : Bytes} {outcome : Outcome}

theorem Advances.refl (d : SwitchInfo) : Advances d d :=
  ⟨rfl,rfl,rfl,Iff.rfl,id,[],(List.append_nil _).symm,by simp⟩

theorem Advances.trans (h : Advances d d') (h' : Advances d' d'') : Advances d d'' := by
  obtain ⟨new,hnew,hquiet⟩ := h.outputs
  obtain ⟨new',hnew',hquiet'⟩ := h'.outputs
  refine ⟨h'.sending.trans h.sending,h'.stopped.trans h.stopped,h'.services.trans h.services,
    h'.live.trans h.live,h'.completed ∘ h.completed,new ++ new',by rw [hnew',hnew,List.append_assoc],?_⟩
  intro o ho
  rcases List.mem_append.mp ho with ho | ho
  · exact hquiet o ho
  · exact hquiet' o ho

section Steps

theorem Advances.same (hsending : d'.sending = d.sending) (hstopped : d'.stopped = d.stopped)
    (hservices : d'.stateServices = d.stateServices)
    (hlive : d'.state = .disconnected ↔ d.state = .disconnected)
    (hcompleted : d.state = .completed → d'.state = .completed) (houtputs : d'.outputs = d.outputs) :
    Advances d d' :=
  ⟨hsending,hstopped,hservices,hlive,hcompleted,[],by rw [houtputs,List.append_nil],by simp⟩

theorem advances_emit {output : Output} (h : ¬ output.Terminal) : Advances d (d.emit output) :=
  ⟨rfl,rfl,rfl,Iff.rfl,id,[output],rfl,fun o ho => by rw [List.mem_singleton.mp ho]; exact h⟩

theorem advances_broadcast (tag : MessageTag) (services : List Bytes) (data : Option Bytes)
    (htag : tag ≠ .disconnected ∧ tag ≠ .faildToConnect) :
    Advances d (d.serviceSendToApplication services tag data) := by
  refine ⟨rfl,rfl,rfl,Iff.rfl,id,_,rfl,?_⟩
  intro o ho
  obtain ⟨name,_,rfl⟩ := List.mem_map.mp ho
  exact not_or.mpr htag

theorem advances_forward (services : List Bytes) : Advances d (d.forward services message).info :=
  advances_broadcast .message services _ ⟨by simp,by simp⟩

theorem advances_unset (callback : TimerCallback) : Advances d (d.switchUnsetTimeout callback) := by
  rw [switchUnsetTimeout]
  split
  · exact .same rfl rfl rfl Iff.rfl (fun hdone => hdone) rfl
  · exact .refl d

theorem advances_sendToSecureChannel (h : d.sendToSecureChannel message = .ok outcome) :
    Advances d outcome.info := by
  rw [sendToSecureChannel] at h
  obtain ⟨_,_,h⟩ := bind_eq_ok.mp h
  split at h
  · injection h with h
    rw [← h]
    exact advances_emit id
  · injection h with h
    rw [← h]
    exact .refl d

theorem advances_sendGenerated {create : UInt32 → Exec Bytes} (h : d.sendGenerated create = .ok outcome) :
    Advances d outcome.info := by
  rw [sendGenerated] at h
  obtain ⟨message,_,h⟩ := bind_eq_ok.mp h
  have hxid : Advances d d.withXid := .same rfl rfl rfl Iff.rfl (fun hdone => hdone) rfl
  exact hxid.trans (advances_sendToSecureChannel h)

theorem advances_sendTransactionReply (h : d.sendTransactionReply message = .ok outcome) :
    Advances d outcome.info := by
  rw [sendTransactionReply] at h
  obtain ⟨xid,_,h⟩ := bind_eq_ok.mp h
  cases hx : d.xidTable.lookupXidEntry xid with
  | none =>
    rw [hx] at h
    injection h with h
    rw [← h]
    exact .refl d
  | some entry =>
    rw [hx] at h
    obtain ⟨m,_,h⟩ := bind_eq_ok.mp h
    injection h with h
    rw [← h]
    have hreply : Advances d (d.serviceSendToReply entry.serviceName .message (some m)) :=
      advances_emit (by simp [Output.Terminal])
    exact hreply.trans (.same rfl rfl rfl Iff.rfl (fun hdone => hdone) rfl)

theorem advances_answer (h : d.answer message = .ok outcome) : Advances d outcome.info := by
  rw [answer] at h
  obtain ⟨sent,hsent,h⟩ := bind_eq_ok.mp h
  injection h with h
  rw [← h]
  have hfirst := advances_sendTransactionReply hsent
  exact hfirst

end Steps

section Events

theorem advances_denyOnStartup (h : d.denyOnStartup = .ok outcome) : Advances d outcome.info := by
  rw [denyOnStartup] at h
  split at h
  · exact advances_sendGenerated h
  · injection h with h
    rw [← h]
    exact .refl d

theorem advances_hello (h : d.switchEventRecvHello = .ok outcome) : Advances d outcome.info := by
  rw [switchEventRecvHello] at h
  split at h
  · rename_i hstate
    obtain ⟨denied,hdenied,h⟩ := bind_eq_ok.mp h
    have hfirst := (advances_unset .timeoutHello).trans (advances_denyOnStartup hdenied)
    split at h
    · injection h with h
      rw [← h]
      exact hfirst
    · obtain ⟨asked,hasked,h⟩ := bind_eq_ok.mp h
      have hsecond := hfirst.trans (advances_sendGenerated hasked)
      split at h
      · injection h with h
        rw [← h]
        exact hsecond
      · injection h with h
        rw [← h]
        refine ⟨hsecond.sending,hsecond.stopped,hsecond.services,iff_of_false (by simp [switchSetTimeout])
          (by rw [hstate]; simp),fun hdone => ?_,hsecond.outputs⟩
        rw [hstate] at hdone
        exact absurd hdone (by simp)
  · injection h with h
    rw [← h]
    exact .refl d

theorem advances_resetSwitch (h : d.resetSwitch = .ok outcome) : Advances d outcome.info := by
  rw [resetSwitch] at h
  obtain ⟨configured,hconfigured,h⟩ := bind_eq_ok.mp h
  have hfirst := advances_sendGenerated hconfigured
  split at h
  · injection h with h
    rw [← h]
    exact hfirst
  · split at h
    · exact hfirst.trans (advances_sendGenerated h)
    · injection h with h
      rw [← h]
      exact hfirst

theorem advances_featuresreply {env : Surroundings} {datapathId : UInt64}
    (h : d.switchEventRecvFeaturesreply env datapathId = .ok outcome) : Advances d outcome.info := by
  rw [switchEventRecvFeaturesreply] at h
  cases hstate : d.state with
  | waitFeaturesReply =>
    rw [hstate] at h
    have hfirst : Advances d
        (switchUnsetTimeout { d with datapathId := datapathId, state := .completed } .timeoutFeaturesReply) := by
      have hidentified : Advances d { d with datapathId := datapathId, state := .completed } :=
        .same rfl rfl rfl (iff_of_false (by simp) (by rw [hstate]; simp)) (fun _ => rfl) rfl
      exact hidentified.trans (advances_unset _)
    simp only at h
    split at h
    · injection h with h
      rw [← h]
      exact hfirst
    · obtain ⟨reset,hreset,h⟩ := bind_eq_ok.mp h
      have hsecond := hfirst.trans (advances_resetSwitch hreset)
      split at h
      · injection h with h
        rw [← h]
        exact hsecond
      · injection h with h
        rw [← h]
        exact hsecond.trans (advances_broadcast _ _ _ ⟨by simp,by simp⟩)
  | _ =>
    rw [hstate] at h
    injection h with h
    rw [← h]
    exact .refl d

theorem advances_echoreply (h : d.switchEventRecvEchoreply message = .ok outcome) :
    Advances d outcome.info := by
  rw [switchEventRecvEchoreply] at h
  split at h
  · injection h with h
    rw [← h]
    exact .refl d
  · obtain ⟨xid,_,h⟩ := bind_eq_ok.mp h
    split at h
    · injection h with h
      rw [← h]
      exact .refl d
    · obtain ⟨datapathId,_,h⟩ := bind_eq_ok.mp h
      split at h
      · injection h with h
        rw [← h]
        exact .refl d
      · injection h with h
        rw [← h]
        exact advances_unset _

end Events

section Cookies

theorem advances_deleteCookieEntry {id : EntryId} (h : d.deleteCookieEntry id = .ok d') : Advances d d' := by
  rw [deleteCookieEntry] at h
  obtain ⟨t,_,h⟩ := bind_eq_ok.mp h
  injection h with h
  rw [← h]
  exact .same rfl rfl rfl Iff.rfl (fun hdone => hdone) rfl

theorem advances_withdrawCookie {length : Nat} {found : Option EntryId}
    (h : d.withdrawCookie message length found = .ok d') : Advances d d' := by
  unfold withdrawCookie at h
  split at h
  · obtain ⟨command,_,h⟩ := bind_eq_ok.mp h
    split at h
    · cases found with
      | none =>
        injection h with h
        rw [← h]
        exact .refl d
      | some id => exact advances_deleteCookieEntry h
    · injection h with h
      rw [← h]
      exact .refl d
  · injection h with h
    rw [← h]
    exact .refl d

theorem advances_restoreFlowMod {length : Nat} {cookie : UInt64} {restored : Bytes × SwitchInfo}
    (h : d.restoreFlowMod message length cookie = .ok restored) : Advances d restored.2 := by
  rw [restoreFlowMod] at h
  cases hfound : d.cookieTable.lookupCookieEntryByCookie cookie with
  | none =>
    rw [hfound] at h
    obtain ⟨m,_,h⟩ := bind_eq_ok.mp h
    obtain ⟨withdrawn,hwithdrawn,h⟩ := bind_eq_ok.mp h
    injection h with h
    rw [← h]
    exact advances_withdrawCookie hwithdrawn
  | some id =>
    rw [hfound] at h
    obtain ⟨entry,_,h⟩ := bind_eq_ok.mp h
    obtain ⟨m,_,h⟩ := bind_eq_ok.mp h
    obtain ⟨withdrawn,hwithdrawn,h⟩ := bind_eq_ok.mp h
    injection h with h
    rw [← h]
    exact advances_withdrawCookie hwithdrawn

theorem advances_recvFlowModFailed {length : Nat} {received : Bytes × SwitchInfo}
    (h : d.recvFlowModFailed message length = .ok (some received)) : Advances d received.2 := by
  rw [recvFlowModFailed] at h
  split at h
  · injection h with h
    rw [← Option.some.inj h]
    exact .refl d
  · obtain ⟨m,_,h⟩ := bind_eq_ok.mp h
    obtain ⟨cookie,_,h⟩ := bind_eq_ok.mp h
    split at h
    · injection h with h
      exact absurd h (by simp)
    · split at h
      · obtain ⟨restored,hrestored,h⟩ := bind_eq_ok.mp h
        injection h with h
        rw [← Option.some.inj h]
        exact advances_restoreFlowMod hrestored
      · injection h with h
        rw [← Option.some.inj h]
        exact .refl d

theorem advances_error (h : d.ofpmsgRecvError message = .ok outcome) : Advances d outcome.info := by
  rw [ofpmsgRecvError] at h
  obtain ⟨type,_,h⟩ := bind_eq_ok.mp h
  split at h
  · injection h with h
    rw [← h]
    exact .refl d
  · split at h
    · obtain ⟨length,_,h⟩ := bind_eq_ok.mp h
      obtain ⟨received,hreceived,h⟩ := bind_eq_ok.mp h
      cases received with
      | none =>
        injection h with h
        rw [← h]
        exact .refl d
      | some received => exact (advances_recvFlowModFailed hreceived).trans (advances_answer h)
    · exact advances_answer h

theorem advances_flowremoved (h : d.ofpmsgRecvFlowremoved message = .ok outcome) :
    Advances d outcome.info := by
  rw [ofpmsgRecvFlowremoved] at h
  obtain ⟨cookie,_,h⟩ := bind_eq_ok.mp h
  split at h
  · injection h with h
    rw [← h]
    exact .refl d
  · split at h
    · injection h with h
      rw [← h]
      exact advances_forward _
    · cases hfound : d.cookieTable.lookupCookieEntryByCookie cookie with
      | none =>
        rw [hfound] at h
        injection h with h
        rw [← h]
        exact .refl d
      | some id =>
        rw [hfound] at h
        obtain ⟨entry,_,h⟩ := bind_eq_ok.mp h
        obtain ⟨delivered,hdelivered,h⟩ := bind_eq_ok.mp h
        obtain ⟨deleted,hdeleted,h⟩ := bind_eq_ok.mp h
        injection h with h
        rw [← h]
        refine Advances.trans ?_ (advances_deleteCookieEntry hdeleted)
        rw [deliverFlowRemoved] at hdelivered
        split at hdelivered
        · obtain ⟨m,_,hdelivered⟩ := bind_eq_ok.mp hdelivered
          injection hdelivered with hdelivered
          rw [← hdelivered]
          exact advances_emit (by simp [Output.Terminal])
        · injection hdelivered with hdelivered
          rw [← hdelivered]
          exact .refl d

theorem advances_statsreply {fuel : Nat} (h : d.ofpmsgRecvStatsreply fuel message = .ok outcome) :
    Advances d outcome.info := by
  simp only [ofpmsgRecvStatsreply] at h
  obtain ⟨m,_,h⟩ := bind_eq_ok.mp h
  obtain ⟨xid,_,h⟩ := bind_eq_ok.mp h
  cases hx : d.xidTable.lookupXidEntry xid with
  | none =>
    rw [hx] at h
    injection h with h
    rw [← h]
    exact .refl d
  | some entry =>
    rw [hx] at h
    obtain ⟨reply,_,h⟩ := bind_eq_ok.mp h
    obtain ⟨flags,_,h⟩ := bind_eq_ok.mp h
    have hreply : Advances d (d.serviceSendToReply entry.serviceName .message (some reply)) :=
      advances_emit (by simp [Output.Terminal])
    split at h
    · injection h with h
      rw [← h]
      exact hreply.trans (.same rfl rfl rfl Iff.rfl (fun hdone => hdone) rfl)
    · injection h with h
      rw [← h]
      exact hreply

end Cookies

section Messages

variable {fuel : Nat} {env : Surroundings}

theorem advances_dispatch {t : OfpType} (h : d.dispatchMessage fuel env message t = .ok outcome) :
    Advances d outcome.info := by
  cases t with
  | hello => exact advances_hello h
  | error => exact advances_error h
  | echoRequest =>
    rw [dispatchMessage,ofpmsgRecvEchorequest] at h
    obtain ⟨body,_,h⟩ := bind_eq_ok.mp h
    obtain ⟨xid,_,h⟩ := bind_eq_ok.mp h
    rw [ofpmsgSendEchoreply] at h
    obtain ⟨reply,_,h⟩ := bind_eq_ok.mp h
    exact advances_sendToSecureChannel h
  | echoReply =>
    rw [dispatchMessage,ofpmsgRecvEchoreply] at h
    obtain ⟨received,hreceived,h⟩ := bind_eq_ok.mp h
    split at h
    · injection h with h
      rw [← h]
      exact advances_echoreply hreceived
    · exact (advances_echoreply hreceived).trans (advances_answer h)
  | featuresReply =>
    rw [dispatchMessage,ofpmsgRecvFeaturesreply] at h
    obtain ⟨datapathId,_,h⟩ := bind_eq_ok.mp h
    obtain ⟨received,hreceived,h⟩ := bind_eq_ok.mp h
    split at h
    · injection h with h
      rw [← h]
      exact advances_featuresreply hreceived
    · exact (advances_featuresreply hreceived).trans (advances_answer h)
  | getConfigReply => exact advances_answer h
  | barrierReply => exact advances_answer h
  | queueGetConfigReply => exact advances_answer h
  | flowRemoved => exact advances_flowremoved h
  | statsReply => exact advances_statsreply h
  | vendor =>
    injection h with h
    rw [← h]
    exact advances_forward _
  | packetIn =>
    injection h with h
    rw [← h]
    exact advances_forward _
  | portStatus =>
    injection h with h
    rw [← h]
    exact advances_forward _
  | _ => exact absurd h (by simp [dispatchMessage])

theorem advances_ofpmsgRecv (h : d.ofpmsgRecv fuel env message = .ok outcome) :
    Advances d outcome.info := by
  rw [ofpmsgRecv] at h
  split at h
  · rw [rejectMessage] at h
    obtain ⟨type,_,h⟩ := bind_eq_ok.mp h
    obtain ⟨sent,hsent,h⟩ := bind_eq_ok.mp h
    injection h with h
    rw [← h]
    have hfirst := advances_sendGenerated hsent
    exact hfirst
  · exact absurd h (by simp)
  · obtain ⟨type,_,h⟩ := bind_eq_ok.mp h
    cases ht : OfpType.ofCode type with
    | none =>
      rw [ht] at h
      exact absurd h (by simp)
    | some t =>
      rw [ht] at h
      exact advances_dispatch h

end Messages

section Requests

variable {serviceName : Bytes} {now : Int}

-- What a request of an application leaves as it is.
structure Passes (d d' : SwitchInfo) : Prop where
  sending : d'.sending = d.sending
  stopped : d'.stopped = d.stopped
  services : d'.stateServices = d.stateServices
  state : d'.state = d.state
  receiver : d'.receiver = d.receiver
  outputs : d'.outputs = d.outputs ∨
    d.sending = true ∧ ∃ message, d'.outputs = d.outputs ++ [.toSwitch message]

theorem Passes.advances (h : Passes d d') : Advances d d' := by
  refine ⟨h.sending,h.stopped,h.services,by rw [h.state],fun hdone => by rw [h.state,hdone],?_⟩
  rcases h.outputs with hsame | ⟨_,message,hmore⟩
  · exact ⟨[],by rw [hsame,List.append_nil],by simp⟩
  · exact ⟨_,hmore,fun o ho => by rw [List.mem_singleton.mp ho]; exact id⟩

theorem passes_sendToSecureChannel (h : d.sendToSecureChannel message = .ok outcome) :
    Passes d outcome.info := by
  rw [sendToSecureChannel] at h
  obtain ⟨_,_,h⟩ := bind_eq_ok.mp h
  split at h
  · rename_i hsending
    injection h with h
    rw [← h]
    exact ⟨rfl,rfl,rfl,rfl,rfl,.inr ⟨hsending,message,rfl⟩⟩
  · injection h with h
    rw [← h]
    exact ⟨rfl,rfl,rfl,rfl,rfl,.inl rfl⟩

theorem passes_sent (message : Bytes) : Passes d (d.withXid.sent message).info := by
  rw [sent]
  split
  · rename_i hsending
    exact ⟨rfl,rfl,rfl,rfl,rfl,.inr ⟨hsending,message,rfl⟩⟩
  · exact ⟨rfl,rfl,rfl,rfl,rfl,.inl rfl⟩

theorem passes_sendGenerated {create : UInt32 → Exec Bytes} (h : d.sendGenerated create = .ok outcome) :
    Passes d outcome.info := by
  rw [sendGenerated] at h
  obtain ⟨message,_,h⟩ := bind_eq_ok.mp h
  have hsent := passes_sendToSecureChannel h
  exact ⟨hsent.sending,hsent.stopped,hsent.services,hsent.state,hsent.receiver,hsent.outputs⟩

theorem passes_ofpmsgSend (h : d.ofpmsgSend message serviceName now = .ok outcome) :
    Passes d outcome.info := by
  rw [ofpmsgSend] at h
  obtain ⟨xid,_,h⟩ := bind_eq_ok.mp h
  obtain ⟨m,_,h⟩ := bind_eq_ok.mp h
  obtain ⟨type,_,h⟩ := bind_eq_ok.mp h
  split at h
  · obtain ⟨updated,_,h⟩ := bind_eq_ok.mp h
    cases updated with
    | none =>
      injection h with h
      rw [← h]
      exact ⟨rfl,rfl,rfl,rfl,rfl,.inl rfl⟩
    | some updated =>
      have hsent := passes_sendToSecureChannel h
      exact ⟨hsent.sending,hsent.stopped,hsent.services,hsent.state,hsent.receiver,hsent.outputs⟩
  · have hsent := passes_sendToSecureChannel h
    exact ⟨hsent.sending,hsent.stopped,hsent.services,hsent.state,hsent.receiver,hsent.outputs⟩

theorem passes_request {fuel : Nat} {datapathId : UInt64}
    (h : d.handleOpenflowMessage fuel datapathId serviceName message now = .ok d') : Passes d d' := by
  rw [handleOpenflowMessage] at h
  split at h
  · obtain ⟨outcome,hsent,h⟩ := bind_eq_ok.mp h
    injection h with h
    rw [← h]
    rw [switchEventRecvFromApplication] at hsent
    split at hsent
    · injection hsent with hsent
      rw [← hsent]
      exact ⟨rfl,rfl,rfl,rfl,rfl,.inl rfl⟩
    · exact passes_ofpmsgSend hsent
  · injection h with h
    rw [← h]
    exact ⟨rfl,rfl,rfl,rfl,rfl,.inl rfl⟩
  · exact absurd h (by simp)

end Requests

end SwitchInfo

end Trema.SwitchManager
