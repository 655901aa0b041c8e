import Trema.OpenFlow.Accept
import Trema.OpenFlow.Creation
import Trema.OpenFlow.Handling
import Trema.SwitchManager.OfpmsgRecv

namespace Trema.SwitchManager

open Library
open OpenFlow

theorem store_eq_overwrite {m bs : Bytes} {off : Nat} (h : off + bs.length ≤ m.length) :
    (store m off bs : Exec Bytes) = .ok (overwrite m off bs) := store_ok h

namespace SwitchInfo

variable {d : SwitchInfo} {message : Bytes}

section Sending

variable (d) in
def sent (message : Bytes) : Outcome :=
  if d.sending then ⟨0,d.emit (.toSwitch message)⟩ else ⟨-1,d⟩

theorem sendToSecureChannel_eq (h : 0 < message.length) :
    d.sendToSecureChannel message = .ok (d.sent message) := by
  rw [sendToSecureChannel,abortIf,if_neg (by omega),ok_bind,sent]
  split <;> rfl

theorem sendGenerated_eq {create : UInt32 → Exec Bytes} (hcreate : create d.generatedXid = .ok message)
    (h : 0 < message.length) : d.sendGenerated create = .ok (d.withXid.sent message) := by
  rw [sendGenerated,hcreate,ok_bind,sendToSecureChannel_eq h]

theorem framed_pos (xid : UInt32) (type : OfpType) (body : Bytes) : 0 < (framed xid type body).length := by
  rw [length_framed]
  omega

theorem createFlowMod_bare (xid : UInt32) (mtch : OfpMatch) (cookie : UInt64)
    (command idleTimeout hardTimeout priority : UInt16) (bufferId : UInt32) (outPort flags : UInt16) :
    ∃ body, createFlowMod xid mtch cookie command idleTimeout hardTimeout priority bufferId outPort flags
      none = .ok (framed xid .flowMod body) :=
  ⟨_,createFlowMod_eq (by simp [actionList]) (by simp [actionList])⟩

theorem ofpmsgSendHello_eq : d.ofpmsgSendHello =
    .ok (d.withXid.sent (framed d.generatedXid .hello [])) :=
  sendGenerated_eq createHeader_framed (framed_pos _ _ _)

theorem ofpmsgSendFeaturesrequest_eq : d.ofpmsgSendFeaturesrequest =
    .ok (d.withXid.sent (framed d.generatedXid .featuresRequest [])) :=
  sendGenerated_eq createHeader_framed (framed_pos _ _ _)

theorem ofpmsgSendErrorMsg_eq (type code : UInt16) (data : Bytes) : d.ofpmsgSendErrorMsg type code data =
    .ok (d.withXid.sent (framed d.generatedXid .error
      (toNet16 type ++ toNet16 code ++ data.take ofpErrorMsgMaxData))) := by
  refine sendGenerated_eq (createError_eq ?_) (framed_pos _ _ _)
  have hle : (data.take ofpErrorMsgMaxData).length ≤ 64 := by
    rw [List.length_take]
    exact Nat.min_le_left _ _
  simp only [Option.getD_some]
  omega

theorem ofpmsgSendSetconfig_ok : ∃ message, d.ofpmsgSendSetconfig = .ok (d.withXid.sent message) :=
  ⟨_,sendGenerated_eq (createFields_framed (by simp)) (framed_pos _ _ _)⟩

theorem ofpmsgSendDeleteAllFlows_ok :
    ∃ message, d.ofpmsgSendDeleteAllFlows = .ok (d.withXid.sent message) := by
  obtain ⟨body,hbody⟩ := createFlowMod_bare d.generatedXid anyMatch reservedCookie
    FlowModCommand.delete.code 0 0 0 uint32Max ofppNone 0
  exact ⟨_,sendGenerated_eq hbody (framed_pos _ _ _)⟩

theorem ofpmsgSendDenyAll_ok : ∃ message, d.ofpmsgSendDenyAll = .ok (d.withXid.sent message) := by
  obtain ⟨body,hbody⟩ := createFlowMod_bare d.generatedXid anyMatch reservedCookie
    FlowModCommand.add.code 0 10 uint16Max uint32Max ofppNone 0
  exact ⟨_,sendGenerated_eq hbody (framed_pos _ _ _)⟩

end Sending

section Answers

variable (d message) in
def answered : SwitchInfo :=
  match d.xidTable.lookupXidEntry (be32 message 4) with
  | none => d
  | some entry =>
    { d.serviceSendToReply entry.serviceName .message
        (some (overwrite message 4 (toNet32 entry.originalXid))) with
      xidTable := d.xidTable.deleteXidEntry entry }

theorem answer_eq (h : 8 ≤ message.length) : d.answer message = .ok ⟨0,d.answered message⟩ := by
  rw [answer,sendTransactionReply,answered,net32_inside (by omega),ok_bind]
  cases d.xidTable.lookupXidEntry (be32 message 4) with
  | none => rfl
  | some entry =>
    simp only [store_eq_overwrite (show 4 + (toNet32 entry.originalXid).length ≤ message.length by
      simp; omega),ok_bind]
    rfl

end Answers

section Internal

-- An output that hands a message on to a service.
def Delivers : Output → Prop
  | .toService _ tag _ _ => tag = .message
  | .toSwitch _ => False

-- What the daemon does of its own accord, generating n transaction ids.
structure Internal (n : Nat) (d d' : SwitchInfo) : Prop where
  cookieTable : d'.cookieTable = d.cookieTable
  xidTable : d'.xidTable = d.xidTable
  transactionId : d'.transactionId = (generateXid d.xidTable)^[n] d.transactionId
  sending : d'.sending = d.sending
  translation : d'.cookieTranslation = d.cookieTranslation
  outputs : ∃ new, d'.outputs = d.outputs ++ new ∧ ∀ o ∈ new, ¬ Delivers o

variable {d' d'' : SwitchInfo} {n k : Nat}

theorem Internal.refl (d : SwitchInfo) : Internal 0 d d :=
  ⟨rfl,rfl,rfl,rfl,rfl,[],(List.append_nil _).symm,by simp⟩

theorem Internal.trans (h : Internal n d d') (h' : Internal k d' d'') : Internal (n + k) d d'' := by
  obtain ⟨new,hnew,hquiet⟩ := h.outputs
  obtain ⟨new',hnew',hquiet'⟩ := h'.outputs
  refine ⟨h'.cookieTable.trans h.cookieTable,h'.xidTable.trans h.xidTable,?_,h'.sending.trans h.sending,
    h'.translation.trans h.translation,new ++ new',by rw [hnew',hnew,List.append_assoc],?_⟩
  · rw [h'.transactionId,h.xidTable,h.transactionId,Nat.add_comm,Function.iterate_add_apply]
  · intro o ho
    rcases List.mem_append.mp ho with ho | ho
    · exact hquiet o ho
    · exact hquiet' o ho

theorem Internal.same (hcookie : d'.cookieTable = d.cookieTable) (hxid : d'.xidTable = d.xidTable)
    (htransaction : d'.transactionId = d.transactionId) (hsending : d'.sending = d.sending)
    (htranslation : d'.cookieTranslation = d.cookieTranslation) (houtputs : d'.outputs = d.outputs) :
    Internal 0 d d' :=
  ⟨hcookie,hxid,htransaction,hsending,htranslation,[],by rw [houtputs,List.append_nil],by simp⟩

theorem internal_unset (callback : TimerCallback) : Internal 0 d (d.switchUnsetTimeout callback) := by
  rw [switchUnsetTimeout]
  split
  · exact .same rfl rfl rfl rfl rfl rfl
  · exact .refl d

theorem internal_sent (message : Bytes) : Internal 0 d (d.sent message).info := by
  rw [sent]
  split
  · exact ⟨rfl,rfl,rfl,rfl,rfl,_,rfl,fun o ho => by rw [List.mem_singleton.mp ho]; exact id⟩
  · exact .refl d

theorem internal_generated (message : Bytes) : Internal 1 d (d.withXid.sent message).info := by
  have hxid : Internal 1 d d.withXid := ⟨rfl,rfl,rfl,rfl,rfl,[],(List.append_nil _).symm,by simp⟩
  exact hxid.trans (internal_sent message)

theorem internal_broadcast {tag : MessageTag} (services : List Bytes) (htag : tag ≠ .message) :
    Internal 0 d (d.serviceSendToApplication services tag none) := by
  refine ⟨rfl,rfl,rfl,rfl,rfl,_,rfl,?_⟩
  intro o ho
  obtain ⟨name,_,rfl⟩ := List.mem_map.mp ho
  exact htag

theorem ret_generated (hsending : d.sending = true) (message : Bytes) : (d.withXid.sent message).ret = 0 := by
  rw [sent,if_pos (show d.withXid.sending = true from hsending)]

theorem ret_unsent (hsending : d.sending = false) (message : Bytes) : (d.withXid.sent message).ret = -1 := by
  rw [sent,if_neg (by simp [withXid,hsending])]

-- The transaction ids that the handler of a hello generates.
variable (d) in
def helloXids : Nat :=
  if d.state = .waitHello then if d.denyPacketInOnStartup = true ∧ d.sending = true then 2 else 1 else 0

theorem denied_hello (d : SwitchInfo) : ∃ outcome, d.denyOnStartup = .ok outcome ∧
    Internal (if d.denyPacketInOnStartup then 1 else 0) d outcome.info ∧
    (outcome.ret < 0 ↔ d.denyPacketInOnStartup = true ∧ d.sending = false) := by
  rw [denyOnStartup]
  cases hdeny : d.denyPacketInOnStartup with
  | false => exact ⟨_,rfl,.refl d,by simp⟩
  | true =>
    obtain ⟨denied,hdenied⟩ := d.ofpmsgSendDenyAll_ok
    refine ⟨_,hdenied,internal_generated denied,?_⟩
    cases hsending : d.sending with
    | false => simp [ret_unsent hsending]
    | true => simp [ret_generated hsending]

variable (d) in
theorem switchEventRecvHello_ok : ∃ outcome, d.switchEventRecvHello = .ok outcome ∧
    Internal d.helloXids d outcome.info := by
  rw [switchEventRecvHello,helloXids]
  split
  · obtain ⟨denied,hdenied,hinternal,hret⟩ := denied_hello (d.switchUnsetTimeout .timeoutHello)
    have hunset := internal_unset (d := d) .timeoutHello
    have hdeny : (d.switchUnsetTimeout .timeoutHello).denyPacketInOnStartup = d.denyPacketInOnStartup := by
      rw [switchUnsetTimeout]
      split <;> rfl
    rw [hdeny] at hinternal hret
    rw [hunset.sending] at hret
    have hfirst := hunset.trans hinternal
    rw [Nat.zero_add] at hfirst
    simp only [hdenied,ok_bind,ofpmsgSendFeaturesrequest_eq]
    by_cases hstop : denied.ret < 0
    · obtain ⟨hyes,hclosed⟩ := hret.mp hstop
      rw [if_pos hstop,if_neg (by simp [hclosed])]
      rw [if_pos hyes] at hfirst
      exact ⟨_,rfl,hfirst⟩
    · have hcount : (if d.denyPacketInOnStartup = true ∧ d.sending = true then 2 else 1) =
          (if d.denyPacketInOnStartup then 1 else 0) + 1 := by
        rw [hret,not_and,Bool.not_eq_false] at hstop
        by_cases hyes : d.denyPacketInOnStartup = true
        · rw [if_pos ⟨hyes,hstop hyes⟩,if_pos hyes]
        · rw [if_neg (fun h => hyes h.1),if_neg hyes]
      have hasked := hfirst.trans (internal_generated (d := denied.info)
        (framed denied.info.generatedXid .featuresRequest []))
      rw [if_neg hstop,hcount]
      split
      · exact ⟨_,rfl,hasked⟩
      · exact ⟨_,rfl,hasked.trans (k := 0) (.same rfl rfl rfl rfl rfl rfl)⟩
  · exact ⟨_,rfl,.refl d⟩

variable (d message) in
theorem switchEventRecvEchoreply_ok : ∃ outcome, d.switchEventRecvEchoreply message = .ok outcome ∧
    outcome.ret = 0 ∧ Internal 0 d outcome.info := by
  rw [switchEventRecvEchoreply]
  split
  · exact ⟨_,rfl,rfl,.refl d⟩
  · rename_i hlen
    rw [not_not,echoBodyLength] at hlen
    rw [net32_inside (by omega),ok_bind,net64_inside (by omega),ok_bind]
    split
    · exact ⟨_,rfl,rfl,.refl d⟩
    · split
      · exact ⟨_,rfl,rfl,.refl d⟩
      · exact ⟨_,rfl,rfl,internal_unset _⟩

-- The transaction ids that configure the switch.
variable (d) in
def resetXids : Nat := if d.flowCleanup = true ∧ d.sending = true then 2 else 1

variable (d) in
theorem resetSwitch_ok : ∃ outcome, d.resetSwitch = .ok outcome ∧ Internal d.resetXids d outcome.info ∧
    (outcome.ret < 0 ↔ d.sending = false) := by
  obtain ⟨message,hconfig⟩ := d.ofpmsgSendSetconfig_ok
  have hfirst := internal_generated (d := d) message
  rw [resetSwitch,hconfig,ok_bind,resetXids]
  cases hsending : d.sending with
  | false =>
    have hret := ret_unsent hsending message
    rw [if_pos (by rw [hret]; decide),if_neg (by simp)]
    exact ⟨_,rfl,hfirst,by simp [hret]⟩
  | true =>
    have hret := ret_generated hsending message
    have hcleanup : (d.withXid.sent message).info.flowCleanup = d.flowCleanup := by
      rw [sent,if_pos (show d.withXid.sending = true from hsending)]
      rfl
    have hopen := hfirst.sending.trans hsending
    rw [if_neg (by rw [hret]; decide),hcleanup]
    cases d.flowCleanup with
    | false => exact ⟨_,rfl,hfirst,by simp⟩
    | true =>
      obtain ⟨deletion,hdelete⟩ := (d.withXid.sent message).info.ofpmsgSendDeleteAllFlows_ok
      exact ⟨_,hdelete,hfirst.trans (internal_generated deletion),by simp [ret_generated hopen]⟩

-- The transaction ids that the handler of a features reply generates.
variable (d) in
def featuresXids (env : Surroundings) : Nat :=
  if d.state = .waitFeaturesReply ∧ env.unique = true then d.resetXids else 0

-- The daemon once a features reply has been taken in.
variable (d) in
def identified (datapathId : UInt64) : SwitchInfo :=
  { d with datapathId := datapathId, state := .completed }.switchUnsetTimeout .timeoutFeaturesReply

theorem internal_identified (datapathId : UInt64) : Internal 0 d (d.identified datapathId) ∧
    (d.identified datapathId).flowCleanup = d.flowCleanup := by
  rw [identified,switchUnsetTimeout]
  split
  · exact ⟨.same rfl rfl rfl rfl rfl rfl,rfl⟩
  · exact ⟨.same rfl rfl rfl rfl rfl rfl,rfl⟩

variable (d) in
theorem switchEventRecvFeaturesreply_ok (env : Surroundings) (datapathId : UInt64) :
    ∃ outcome, d.switchEventRecvFeaturesreply env datapathId = .ok outcome ∧
      Internal (d.featuresXids env) d outcome.info := by
  rw [switchEventRecvFeaturesreply,featuresXids]
  cases hstate : d.state with
  | waitFeaturesReply =>
    simp only [true_and]
    obtain ⟨hidentified,hcleanup⟩ := internal_identified (d := d) datapathId
    have hxids : (d.identified datapathId).resetXids = d.resetXids := by
      rw [resetXids,resetXids,hcleanup,hidentified.sending]
    obtain ⟨reset,hreset,hinternal,_⟩ := (d.identified datapathId).resetSwitch_ok
    rw [hxids] at hinternal
    have hboth := hidentified.trans hinternal
    rw [Nat.zero_add] at hboth
    rw [identified] at hreset hidentified
    cases env.unique with
    | false => exact ⟨_,rfl,hidentified⟩
    | true =>
      simp only [hreset,ok_bind]
      rw [if_neg (by simp),if_pos trivial]
      split
      · exact ⟨_,rfl,hboth⟩
      · exact ⟨_,rfl,hboth.trans (k := 0) (internal_broadcast _ (by simp))⟩
  | _ => exact ⟨_,rfl,.refl d⟩

end Internal

end SwitchInfo

end Trema.SwitchManager
