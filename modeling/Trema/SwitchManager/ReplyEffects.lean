import Trema.SwitchManager.Transactions

namespace Trema.SwitchManager

open Library
open OpenFlow

namespace SwitchInfo

variable {d d' d'' : SwitchInfo} {message : Bytes} {outcome : Outcome} {n k : Nat}

section Effects

-- The xid table is left alone while n transaction ids are generated.
structure Generates (n : Nat) (d d' : SwitchInfo) : Prop where
  xidTable : d'.xidTable = d.xidTable
  transactionId : d'.transactionId = (generateXid d.xidTable)^[n] d.transactionId
  sending : d'.sending = d.sending

def Quiet (d d' : SwitchInfo) : Prop := ∃ new, d'.outputs = d.outputs ++ new ∧ ∀ o ∈ new, ¬ Delivers o

theorem Generates.same (hxid : d'.xidTable = d.xidTable) (htransaction : d'.transactionId = d.transactionId)
    (hsending : d'.sending = d.sending) : Generates 0 d d' := ⟨hxid,htransaction,hsending⟩

theorem Internal.generates (h : Internal n d d') : Generates n d d' := ⟨h.xidTable,h.transactionId,h.sending⟩

theorem Internal.quiet (h : Internal n d d') : Quiet d d' := h.outputs

theorem Quiet.same (h : d'.outputs = d.outputs) : Quiet d d' := ⟨[],by rw [h,List.append_nil],by simp⟩

theorem delivered_append {new : List Output} (h : d'.outputs = d.outputs ++ new) :
    d.delivered d' = new.filter fun o => decide (Delivers o) := by
  rw [delivered,h,List.drop_left]

theorem Quiet.delivered (h : Quiet d d') : d.delivered d' = [] := by
  obtain ⟨new,hnew,hquiet⟩ := h
  rw [delivered_append hnew]
  exact List.filter_eq_nil_iff.mpr fun o ho => by simpa using hquiet o ho

theorem Quiet.delivered_trans (h : Quiet d d') {new : List Output} (hnew : d''.outputs = d'.outputs ++ new) :
    d.delivered d'' = new.filter fun o => decide (Delivers o) := by
  obtain ⟨own,hown,hquiet⟩ := h
  have hboth : d''.outputs = d.outputs ++ (own ++ new) := by rw [hnew,hown,List.append_assoc]
  have hnone : own.filter (fun o => decide (Delivers o)) = [] :=
    List.filter_eq_nil_iff.mpr fun o ho => by simpa using hquiet o ho
  rw [delivered_append hboth,List.filter_append,hnone,List.nil_append]

end Effects

section Passing

variable (d message) in
-- A reply is passed on to the service that its transaction id stands for.
def passedOn (last : Bool) : SwitchInfo :=
  match d.xidTable.lookupXidEntry (be32 message 4) with
  | none => d
  | some entry =>
    let replied := d.serviceSendToReply entry.serviceName .message
      (some (overwrite message 4 (toNet32 entry.originalXid)))
    if last then { replied with xidTable := d.xidTable.deleteXidEntry entry } else replied

variable (d message) in
theorem passedOn_sending (last : Bool) : (d.passedOn message last).sending = d.sending ∧
    (d.passedOn message last).transactionId = d.transactionId := by
  rw [passedOn]
  cases d.xidTable.lookupXidEntry (be32 message 4) with
  | none => exact ⟨rfl,rfl⟩
  | some entry => cases last <;> exact ⟨rfl,rfl⟩

variable (d message) in
theorem passedOn_xidTable (last : Bool) : (d.passedOn message last).xidTable =
    if last then d.xidTable.step (.delete (be32 message 4)) else d.xidTable := by
  rw [passedOn,XidTable.step]
  cases d.xidTable.lookupXidEntry (be32 message 4) with
  | none => cases last <;> rfl
  | some entry => cases last <;> rfl

def forwardedReply (d : SwitchInfo) (message : Bytes) : List Output :=
  match d.xidTable.lookupXidEntry (be32 message 4) with
  | none => []
  | some entry => [.toService entry.serviceName .message d.datapathId
      (some (overwrite message 4 (toNet32 entry.originalXid)))]

theorem passedOn_outputs (last : Bool) :
    (d.passedOn message last).outputs = d.outputs ++ d.forwardedReply message := by
  rw [passedOn,forwardedReply]
  cases d.xidTable.lookupXidEntry (be32 message 4) with
  | none => exact (List.append_nil _).symm
  | some entry => cases last <;> rfl

theorem forwardedReply_delivers :
    (d.forwardedReply message).filter (fun o => decide (Delivers o)) = d.forwardedReply message := by
  rw [forwardedReply]
  cases d.xidTable.lookupXidEntry (be32 message 4) with
  | none => rfl
  | some entry => rfl

end Passing

section Errors

theorem deleteCookieEntry_changes {id : EntryId} (h : d.deleteCookieEntry id = .ok d') :
    ∃ t, d' = { d with cookieTable := t } := by
  rw [deleteCookieEntry] at h
  obtain ⟨t,_,h⟩ := bind_eq_ok.mp h
  injection h with h
  exact ⟨t,h.symm⟩

theorem withdrawCookie_changes {length : Nat} {found : Option EntryId}
    (h : d.withdrawCookie message length found = .ok d') : ∃ t, d' = { d with cookieTable := t } := by
  have hsame : d' = d → ∃ t, d' = { d with cookieTable := t } := fun hd => ⟨d.cookieTable,hd⟩
  unfold withdrawCookie at h
  split at h
  · obtain ⟨command,_,h⟩ := bind_eq_ok.mp h
    split at h
    · cases found with
      | none =>
        injection h with h
        exact hsame h.symm
      | some id => exact deleteCookieEntry_changes h
    · injection h with h
      exact hsame h.symm
  · injection h with h
    exact hsame h.symm

theorem restoreFlowMod_changes {length : Nat} {cookie : UInt64} {restored : Bytes × SwitchInfo}
    (hlen : 56 ≤ length) (hfit : length + 12 ≤ message.length)
    (h : d.restoreFlowMod message length cookie = .ok restored) :
    Requoted restored.1 message ∧ ∃ t, restored.2 = { d with cookieTable := t } := by
  rw [restoreFlowMod] at h
  cases hfound : d.cookieTable.lookupCookieEntryByCookie cookie with
  | none =>
    rw [hfound] at h
    obtain ⟨m,hm,h⟩ := bind_eq_ok.mp h
    obtain ⟨withdrawn,hwithdrawn,h⟩ := bind_eq_ok.mp h
    injection hm with hm
    injection h with h
    rw [← h,← hm]
    exact ⟨.self _,withdrawCookie_changes hwithdrawn⟩
  | some id =>
    rw [hfound] at h
    obtain ⟨entry,_,h⟩ := bind_eq_ok.mp h
    obtain ⟨m,hm,h⟩ := bind_eq_ok.mp h
    obtain ⟨withdrawn,hwithdrawn,h⟩ := bind_eq_ok.mp h
    obtain ⟨m',hm',hquoted⟩ := restoreCookie_ok entry hlen hfit
    rw [hm'] at hm
    injection hm with hm
    injection h with h
    rw [← h,← hm]
    exact ⟨hquoted,withdrawCookie_changes hwithdrawn⟩

theorem recvFlowModFailed_changes (hmin : 12 ≤ message.length) (htype : be16 message 8 = ofpetFlowModFailed)
    {received : Option (Bytes × SwitchInfo)}
    (h : d.recvFlowModFailed message (message.length - 12) = .ok received) :
    Unnamed message ∧ received = none ∨ ¬ Unnamed message ∧
      ∃ m t, received = some (m,{ d with cookieTable := t }) ∧ Requoted m message := by
  rw [recvFlowModFailed] at h
  split at h
  · injection h with h
    refine .inr ⟨fun hun => ?_,message,d.cookieTable,h.symm,.self _⟩
    have := hun.2.1
    omega
  · obtain ⟨m,hm,hquoted,hcookie⟩ := d.restoreXid_ok (show 12 + 8 ≤ message.length by omega)
    have hlen := hquoted.length
    rw [hm,ok_bind,quotedFlowMod,net64_inside (by omega),ok_bind,hcookie] at h
    split at h
    · rename_i hreserved
      injection h with h
      exact .inl ⟨⟨htype,by omega,hreserved⟩,h.symm⟩
    · rename_i hreserved
      refine .inr ⟨fun hun => hreserved hun.2.2,?_⟩
      split at h
      · obtain ⟨restored,hrestored,h⟩ := bind_eq_ok.mp h
        obtain ⟨hquoted',t,ht⟩ := restoreFlowMod_changes (by omega) (by omega) hrestored
        injection h with h
        exact ⟨restored.1,t,by rw [← h,← ht],hquoted'.trans hquoted⟩
      · injection h with h
        exact ⟨m,d.cookieTable,h.symm,hquoted⟩

end Errors

section Handlers

-- The handler generates n transaction ids and then passes the reply on, with nothing before its body changed.
def Forwards (n : Nat) (message : Bytes) (d d' : SwitchInfo) : Prop :=
  ∃ d₁ m, Generates n d d₁ ∧ Quiet d d₁ ∧ m.length = message.length ∧ be32 m 4 = be32 message 4 ∧
    d' = d₁.passedOn m (isLast message)

-- The handler generates n transaction ids and passes nothing on.
def TurnsAway (n : Nat) (d d' : SwitchInfo) : Prop := Generates n d d' ∧ Quiet d d'

theorem turnsAway_self (d : SwitchInfo) : TurnsAway 0 d d := ⟨.same rfl rfl rfl,.same rfl⟩

theorem Internal.turnsAway (h : Internal n d d') : TurnsAway n d d' := ⟨h.generates,h.quiet⟩

variable {t : OfpType} {env : Surroundings} {fuel : Nat}

theorem isLast_of_type (hh : Headed message t k n) (ht : t ≠ .statsReply) : isLast message = true := by
  have hcode : t.code ≠ OfpType.statsReply.code := by
    intro hsame
    have hofCode := OfpType.ofCode_code t
    rw [hsame,OfpType.ofCode_code] at hofCode
    exact ht (Option.some.inj hofCode).symm
  rw [isLast,hh.type,bne_iff_ne.mpr hcode,Bool.true_or]

theorem forwards_answer (hh : Headed message t k 65535) (ht : t ≠ .statsReply) (h : Internal n d d')
    (hanswer : d'.answer message = .ok outcome) : Forwards n message d outcome.info := by
  rw [answer_eq hh.fits] at hanswer
  injection hanswer with hanswer
  refine ⟨d',message,h.generates,h.quiet,rfl,rfl,?_⟩
  rw [← hanswer,isLast_of_type hh ht]
  rfl

theorem error_effect (hh : Headed message .error 12 65535) (h : d.ofpmsgRecvError message = .ok outcome) :
    if d.state = .completed ∧ ¬ Unnamed message then Forwards 0 message d outcome.info
    else TurnsAway 0 d outcome.info := by
  by_cases hstate : d.state = .completed
  · have hmin := hh.lower
    have hzero : d.switchEventRecvError = 0 := if_pos hstate
    rw [ofpmsgRecvError,net16_inside (by omega),ok_bind,if_neg (by rw [hzero]; decide)] at h
    split at h
    · rename_i htype
      have hsub : subSize message.length quotedFlowMod = message.length - 12 := subSize_of_le hmin
      rw [net16_inside (by omega),ok_bind,hh.length,hsub] at h
      obtain ⟨received,hreceived,h⟩ := bind_eq_ok.mp h
      rcases recvFlowModFailed_changes hmin htype hreceived with ⟨hun,rfl⟩ | ⟨hun,m,t,rfl,hquoted⟩
      · injection h with h
        rw [if_neg (fun hall => hall.2 hun),← h]
        exact turnsAway_self d
      · have hlen : 8 ≤ m.length := by
          rw [hquoted.length]
          omega
        simp only [answer_eq hlen] at h
        injection h with h
        rw [if_pos ⟨hstate,hun⟩]
        refine ⟨{ d with cookieTable := t },m,.same rfl rfl rfl,.same rfl,hquoted.length,hquoted.xid,?_⟩
        rw [← h,isLast_of_type hh (by simp)]
        rfl
    · rename_i htype
      rw [if_pos ⟨hstate,fun hun => htype hun.1⟩]
      exact forwards_answer hh (by simp) (.refl d) h
  · rw [ofpmsgRecvError_early hh hstate] at h
    injection h with h
    rw [if_neg (fun hall => hstate hall.1),← h]
    exact turnsAway_self d

-- The features reply that the handler takes in.
def Identifies (d : SwitchInfo) (env : Surroundings) : Prop :=
  d.state = .completed ∨
    d.state = .waitFeaturesReply ∧ env.unique = true ∧ env.switchListRequested = true

instance : Decidable (d.Identifies env) := inferInstanceAs (Decidable (_ ∨ _))

theorem featuresreply_ret (hsending : d.sending = true) {datapathId : UInt64} {received : Outcome}
    (h : d.switchEventRecvFeaturesreply env datapathId = .ok received) :
    received.ret < 0 ↔ ¬ d.Identifies env := by
  by_cases hid : d.Identifies env
  · rw [ret_featuresreply hsending hid h]
    exact iff_of_false (by decide) (not_not.mpr hid)
  · refine iff_of_true ?_ hid
    rw [switchEventRecvFeaturesreply] at h
    cases hstate : d.state with
    | completed => exact absurd (.inl hstate) hid
    | waitFeaturesReply =>
      rw [hstate] at h
      simp only at h
      split at h
      · injection h with h
        rw [← h]
        exact Int.negSucc_lt_zero 0
      · rename_i hunique
        rw [Bool.not_eq_false] at hunique
        obtain ⟨reset,_,h⟩ := bind_eq_ok.mp h
        have hlist : ¬ env.switchListRequested = true := fun hlist => hid (.inr ⟨hstate,hunique,hlist⟩)
        split at h
        · rename_i hret
          injection h with h
          rw [← h]
          exact hret
        · injection h with h
          rw [← h]
          exact Int.negSucc_lt_zero 0
    | _ =>
      rw [hstate] at h
      injection h with h
      rw [← h]
      exact Int.negSucc_lt_zero 0

theorem featuresreply_effect (hsending : d.sending = true) (hh : Headed message .featuresReply 32 65535)
    (h : d.ofpmsgRecvFeaturesreply env message = .ok outcome) :
    if d.Identifies env then Forwards (d.featuresXids env) message d outcome.info
    else TurnsAway (d.featuresXids env) d outcome.info := by
  obtain ⟨received,hreceived,hinternal⟩ := d.switchEventRecvFeaturesreply_ok env (be64 message 8)
  have hret := featuresreply_ret hsending hreceived
  have hmin := hh.lower
  rw [ofpmsgRecvFeaturesreply,net64_inside (by omega),ok_bind,hreceived,ok_bind] at h
  split at h
  · rename_i hneg
    injection h with h
    rw [if_neg (hret.mp hneg),← h]
    exact hinternal.turnsAway
  · rename_i hneg
    rw [if_pos (not_not.mp fun hid => hneg (hret.mpr hid))]
    exact forwards_answer hh (by simp) hinternal h

theorem statsreply_effect (hh : Headed message .statsReply 12 65535)
    (h : d.ofpmsgRecvStatsreply fuel message = .ok outcome) : Forwards 0 message d outcome.info := by
  simp only [ofpmsgRecvStatsreply] at h
  obtain ⟨m,hm,h⟩ := bind_eq_ok.mp h
  obtain ⟨hlen,hxid,hflags⟩ := translated_header hh hm
  have hmin := hh.lower
  refine ⟨d,m,.same rfl rfl rfl,.same rfl,hlen,hxid,?_⟩
  rw [net32_inside (by omega),ok_bind] at h
  rw [passedOn]
  cases hx : d.xidTable.lookupXidEntry (be32 m 4) with
  | none =>
    rw [hx] at h
    injection h with h
    rw [← h]
  | some entry =>
    have hfit : 4 + (toNet32 entry.originalXid).length ≤ m.length := by
      simp
      omega
    have hlen' := length_overwrite hfit
    have hlast : isLast message = (be16 message 10 &&& ofpsfReplyMore == 0) := by
      rw [isLast,hh.type,bne_self_eq_false,Bool.false_or]
    rw [hx] at h
    simp only [store_eq_overwrite hfit,ok_bind,net16_inside
      (show 10 + 2 ≤ (overwrite m 4 (toNet32 entry.originalXid)).length by omega),
      be16_overwrite_apart hfit (p := 10) (.inr (by simp)),hflags] at h
    simp only [hlast]
    split at h
    · rename_i hzero
      injection h with h
      rw [← h,if_pos (beq_iff_eq.mpr hzero)]
      rfl
    · rename_i hmore
      injection h with h
      rw [← h,if_neg (fun hzero => hmore (beq_iff_eq.mp hzero))]

end Handlers

section Arrivals

variable {t : OfpType} {env : Surroundings} {fuel : Nat}

theorem generates_forward (services : List Bytes) : Generates 0 d (d.forward services message).info :=
  .same rfl rfl rfl

theorem generates_flowremoved (h : d.ofpmsgRecvFlowremoved message = .ok outcome) :
    Generates 0 d outcome.info := by
  rw [ofpmsgRecvFlowremoved] at h
  obtain ⟨cookie,_,h⟩ := bind_eq_ok.mp h
  split at h
  · injection h with h
    rw [← h]
    exact (turnsAway_self d).1
  · split at h
    · injection h with h
      rw [← h]
      exact generates_forward _
    · cases hfound : d.cookieTable.lookupCookieEntryByCookie cookie with
      | none =>
        rw [hfound] at h
        injection h with h
        rw [← h]
        exact (turnsAway_self d).1
      | some id =>
        rw [hfound] at h
        obtain ⟨entry,_,h⟩ := bind_eq_ok.mp h
        obtain ⟨delivered,hdelivered,h⟩ := bind_eq_ok.mp h
        obtain ⟨deleted,hdeleted,h⟩ := bind_eq_ok.mp h
        obtain ⟨t,rfl⟩ := deleteCookieEntry_changes hdeleted
        injection h with h
        rw [← h]
        rw [deliverFlowRemoved] at hdelivered
        split at hdelivered
        · obtain ⟨m,_,hdelivered⟩ := bind_eq_ok.mp hdelivered
          injection hdelivered with hdelivered
          rw [← hdelivered]
          exact .same rfl rfl rfl
        · injection hdelivered with hdelivered
          rw [← hdelivered]
          exact .same rfl rfl rfl

-- A handler that heeds a reply passes it on, and one that turns a reply away delivers nothing.
def Treats (heeded : Bool) (n : Nat) (message : Bytes) (d d' : SwitchInfo) : Prop :=
  if heeded then Forwards n message d d'
  else Generates n d d' ∧ (isReply message = true → Quiet d d')

theorem treats_unheeded (hgenerates : Generates n d d') (hreply : isReply message = false) :
    Treats false n message d d' :=
  ⟨hgenerates,fun h => absurd (h.symm.trans hreply) (by simp)⟩

theorem isReply_of_type (hh : Headed message t k n) : isReply message = decide (t ∈ replyTypes) := by
  rw [isReply,hh.type,OfpType.ofCode_code]

theorem treats_of_ite {p : Prop} [Decidable p]
    (h : if p then Forwards n message d d' else TurnsAway n d d') : Treats (decide p) n message d d' := by
  by_cases hp : p
  · rw [if_pos hp] at h
    rw [decide_eq_true hp]
    exact h
  · rw [if_neg hp] at h
    rw [decide_eq_false hp]
    exact ⟨h.1,fun _ => h.2⟩

theorem treats_dispatch (hsending : d.sending = true) (hh : Headed message t (minLength t) 65535)
    (h : d.dispatchMessage fuel env message t = .ok outcome) :
    Treats (d.heedsType env message t) (d.typeXids env t) message d outcome.info := by
  have hreply := isReply_of_type hh
  cases t with
  | hello =>
    obtain ⟨received,hreceived,hinternal⟩ := d.switchEventRecvHello_ok
    rw [dispatchMessage,ofpmsgRecvHello,hreceived] at h
    injection h with h
    rw [← h]
    exact treats_unheeded hinternal.generates hreply
  | error => exact treats_of_ite (error_effect hh h)
  | echoRequest =>
    rw [dispatchMessage,ofpmsgRecvEchorequest_eq hh.fits hh.upper] at h
    injection h with h
    rw [← h]
    exact treats_unheeded (internal_sent _).generates hreply
  | echoReply =>
    obtain ⟨received,hreceived,hret,hinternal⟩ := d.switchEventRecvEchoreply_ok message
    rw [dispatchMessage,ofpmsgRecvEchoreply,hreceived,ok_bind,if_neg (by rw [hret]; decide)] at h
    exact forwards_answer hh (by simp) hinternal h
  | featuresReply => exact treats_of_ite (featuresreply_effect hsending hh h)
  | getConfigReply => exact forwards_answer hh (by simp) (.refl d) h
  | barrierReply => exact forwards_answer hh (by simp) (.refl d) h
  | queueGetConfigReply => exact forwards_answer hh (by simp) (.refl d) h
  | statsReply => exact statsreply_effect hh h
  | flowRemoved => exact treats_unheeded (generates_flowremoved h) hreply
  | vendor =>
    injection h with h
    rw [← h]
    exact treats_unheeded (generates_forward _) hreply
  | packetIn =>
    injection h with h
    rw [← h]
    exact treats_unheeded (generates_forward _) hreply
  | portStatus =>
    injection h with h
    rw [← h]
    exact treats_unheeded (generates_forward _) hreply
  | _ => exact absurd h (by simp [dispatchMessage])

theorem treats_arrival (hsending : d.sending = true) (h : d.ofpmsgRecv fuel env message = .ok outcome) :
    Treats (d.heeds fuel env message) (d.arrivalXids fuel env message) message d outcome.info := by
  rw [ofpmsgRecv] at h
  rw [heeds,arrivalXids]
  split at h
  · rename_i error hvalid
    have hinternal := rejectMessage_internal h
    simp only [hvalid]
    exact ⟨hinternal.generates,fun _ => hinternal.quiet⟩
  · exact absurd h (by simp)
  · rename_i hvalid
    have haccepted : Accepts message := ⟨by simp,fuel,hvalid⟩
    obtain ⟨t,ht,htype⟩ := haccepted.type
    have hh := headed_of_accepted htype
    have hfits := hh.fits
    rw [byteAt_inside (by omega),ok_bind,ht] at h
    simp only [hvalid,ht]
    exact treats_dispatch hsending hh h

end Arrivals

end SwitchInfo

end Trema.SwitchManager
