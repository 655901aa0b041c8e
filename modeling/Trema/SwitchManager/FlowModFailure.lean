import Trema.OpenFlow.Delivery
import Trema.SwitchManager.CookieEffects
import Trema.SwitchManager.CookieRuns
import Trema.SwitchManager.Dispatch

namespace Trema.SwitchManager

open Library
open OpenFlow

section Forwarding

variable (message : Bytes)

def forwarded (xid : UInt32) (cookie : UInt64) (flags : UInt16) : Bytes :=
  overwrite (overwrite (overwrite message 4 (toNet32 xid)) 48 (toNet64 cookie)) 70 (toNet16 flags)

variable {message} (xid : UInt32) (cookie : UInt64) (flags : UInt16)

theorem length_renumbered (h : 72 ≤ message.length) :
    (overwrite message 4 (toNet32 xid)).length = message.length :=
  length_overwrite (by simp; omega)

theorem length_recookied (h : 72 ≤ message.length) :
    (overwrite (overwrite message 4 (toNet32 xid)) 48 (toNet64 cookie)).length = message.length := by
  have hlen := length_renumbered xid h
  rw [length_overwrite (by simp; omega),hlen]

theorem length_forwarded (h : 72 ≤ message.length) :
    (forwarded message xid cookie flags).length = message.length := by
  have hlen := length_recookied xid cookie h
  rw [forwarded,length_overwrite (by simp; omega),hlen]

theorem xid_forwarded (h : 72 ≤ message.length) : be32 (forwarded message xid cookie flags) 4 = xid := by
  have hlen := length_recookied xid cookie h
  have hlen' := length_renumbered xid h
  rw [forwarded,be32_overwrite_apart (by simp; omega) (.inl (by omega)),
    be32_overwrite_apart (by simp; omega) (.inl (by omega)),be32_overwrite _ (by omega)]

theorem cookie_forwarded (h : 72 ≤ message.length) :
    be64 (forwarded message xid cookie flags) 48 = cookie := by
  have hlen := length_recookied xid cookie h
  have hlen' := length_renumbered xid h
  rw [forwarded,be64_overwrite_apart (by simp; omega) (.inl (by omega)),be64_overwrite _ (by omega)]

theorem command_forwarded (h : 72 ≤ message.length) :
    be16 (forwarded message xid cookie flags) 56 = be16 message 56 := by
  have hlen := length_recookied xid cookie h
  have hlen' := length_renumbered xid h
  rw [forwarded,be16_overwrite_apart (by simp; omega) (.inl (by omega)),
    be16_overwrite_apart (by simp; omega) (.inr (by simp)),
    be16_overwrite_apart (by simp; omega) (.inr (by simp))]

end Forwarding

namespace SwitchInfo

variable {d : SwitchInfo} {message serviceName : Bytes} {now : Int}

section Sending

theorem ofpmsgSend_flowMod (hh : Headed message .flowMod 72 65535) (hon : d.cookieTranslation = true)
    {cookie : UInt64} {table : CookieTable}
    (hglobal : d.globalCookie (FlowModCommand.ofCode (be16 message 56)) (be64 message 48) serviceName
      (be16 message 70) now = .ok (some (cookie,table))) :
    d.ofpmsgSend message serviceName now =
      .ok (sent { d.insertXidEntry (be32 message 4) serviceName with cookieTable := table }
        (forwarded message d.insertedXid cookie (be16 message 70 ||| ofpffSendFlowRem))) := by
  have hmin := hh.lower
  have hlen := length_renumbered d.insertedXid hmin
  have hlen' := length_recookied d.insertedXid cookie hmin
  have htype : hostByte (overwrite message 4 (toNet32 d.insertedXid)) 1 = OfpType.flowMod.code := by
    rw [hostByte_overwrite_apart (by simp; omega) (.inl (by omega)),hh.type]
  have hcommand : be16 (overwrite message 4 (toNet32 d.insertedXid)) 56 = be16 message 56 :=
    be16_overwrite_apart (by simp; omega) (.inr (by simp))
  have hflags : be16 (overwrite message 4 (toNet32 d.insertedXid)) 70 = be16 message 70 :=
    be16_overwrite_apart (by simp; omega) (.inr (by simp))
  have hcookie : be64 (overwrite message 4 (toNet32 d.insertedXid)) 48 = be64 message 48 :=
    be64_overwrite_apart (by simp; omega) (.inr (by simp))
  have hglobal' : (d.insertXidEntry (be32 message 4) serviceName).globalCookie
      (FlowModCommand.ofCode (be16 message 56)) (be64 message 48) serviceName (be16 message 70) now =
        .ok (some (cookie,table)) := hglobal
  have hupdate : (d.insertXidEntry (be32 message 4) serviceName).updateFlowmodCookie
      (overwrite message 4 (toNet32 d.insertedXid)) serviceName now =
        .ok (some (forwarded message d.insertedXid cookie (be16 message 70 ||| ofpffSendFlowRem),table)) := by
    rw [updateFlowmodCookie,net16_inside (by omega),ok_bind,net16_inside (by omega),ok_bind,
      net64_inside (by omega),ok_bind,hcommand,hflags,hcookie,hglobal',ok_bind]
    simp only [translateFlowmod,writeCookie,writeFlags]
    rw [store_eq_overwrite (by simp; omega),ok_bind,store_eq_overwrite (by simp; omega)]
    rfl
  rw [ofpmsgSend,net32_inside (by omega),ok_bind,store_eq_overwrite (by simp; omega),ok_bind,
    byteAt_inside (by omega),ok_bind,htype,if_pos ⟨rfl,hon⟩,hupdate,ok_bind]
  exact sendToSecureChannel_eq (by rw [length_forwarded _ _ _ hmin]; omega)

theorem ofpmsgSend_untranslated (hh : Headed message .flowMod 72 65535)
    (hoff : d.cookieTranslation = false) : d.ofpmsgSend message serviceName now =
      .ok ((d.insertXidEntry (be32 message 4) serviceName).sent
        (overwrite message 4 (toNet32 d.insertedXid))) := by
  have hmin := hh.lower
  have hlen := length_renumbered d.insertedXid hmin
  have hoff' : ¬ (d.insertXidEntry (be32 message 4) serviceName).cookieTranslation = true := by
    rw [insertXidEntry,hoff]
    exact Bool.false_ne_true
  rw [ofpmsgSend,net32_inside (by omega),ok_bind,store_eq_overwrite (by simp; omega),ok_bind,
    byteAt_inside (by omega),ok_bind,if_neg (fun h => hoff' h.2)]
  exact sendToSecureChannel_eq (by omega)

theorem ofpmsgSend_undefined (hh : Headed message .flowMod 72 65535) (hon : d.cookieTranslation = true)
    (hcommand : FlowModCommand.ofCode (be16 message 56) = none) :
    d.ofpmsgSend message serviceName now = .ok ⟨-1,d.insertXidEntry (be32 message 4) serviceName⟩ := by
  have hmin := hh.lower
  have hlen := length_renumbered d.insertedXid hmin
  have htype : hostByte (overwrite message 4 (toNet32 d.insertedXid)) 1 = OfpType.flowMod.code := by
    rw [hostByte_overwrite_apart (by simp; omega) (.inl (by omega)),hh.type]
  have hcommand' : FlowModCommand.ofCode (be16 (overwrite message 4 (toNet32 d.insertedXid)) 56) = none := by
    rw [be16_overwrite_apart (by simp; omega) (.inr (by simp)),hcommand]
  have hupdate : (d.insertXidEntry (be32 message 4) serviceName).updateFlowmodCookie
      (overwrite message 4 (toNet32 d.insertedXid)) serviceName now = .ok none := by
    rw [updateFlowmodCookie,net16_inside (by omega),ok_bind,net16_inside (by omega),ok_bind,
      net64_inside (by omega),ok_bind,hcommand']
    rfl
  rw [ofpmsgSend,net32_inside (by omega),ok_bind,store_eq_overwrite (by simp; omega),ok_bind,
    byteAt_inside (by omega),ok_bind,htype,if_pos ⟨rfl,hon⟩,hupdate,ok_bind]
  rfl

section GlobalCookies

variable {cookie : UInt64} {flags : UInt16}

theorem globalCookie_known {c : FlowModCommand} (hc : c ≠ .add)
    {e : CookieEntry} (he : d.cookieTable.entryOf ⟨cookie,copyServiceName serviceName⟩ = some e) :
    d.globalCookie (some c) cookie serviceName flags now = .ok (some (e.cookie,d.cookieTable)) := by
  obtain ⟨id,hid,hheap⟩ := CookieTable.lookup_application_iff.mpr he
  have hfound : d.foundEntry id = .ok e := by
    rw [foundEntry,hheap]
    rfl
  cases c with
  | add => exact absurd rfl hc
  | _ =>
    simp only [globalCookie,hid,hfound,ok_bind]
    rfl

theorem globalCookie_inserted (hlinked : d.cookieTable.Linked) {c : FlowModCommand}
    (hc : c = .add ∨ (c = .modify ∨ c = .modifyStrict) ∧
      d.cookieTable.entryOf ⟨cookie,copyServiceName serviceName⟩ = none) {x : UInt64 × CookieTable}
    (hx : d.cookieTable.insertCookieEntry cookie serviceName flags now = some x) :
    d.globalCookie (some c) cookie serviceName flags now = .ok (some x) := by
  have hinserted : d.insertedCookie cookie serviceName flags now = .ok x := by
    rw [insertedCookie,hx]
    rfl
  rcases hc with rfl | ⟨rfl | rfl,hnone⟩
  · simp only [globalCookie,hinserted,ok_bind]
    rfl
  · simp only [globalCookie,(CookieTable.lookup_application_none hlinked).mpr hnone,hinserted,ok_bind]
    rfl
  · simp only [globalCookie,(CookieTable.lookup_application_none hlinked).mpr hnone,hinserted,ok_bind]
    rfl

theorem globalCookie_reserved (hlinked : d.cookieTable.Linked) {c : FlowModCommand}
    (hc : c = .delete ∨ c = .deleteStrict)
    (hnone : d.cookieTable.entryOf ⟨cookie,copyServiceName serviceName⟩ = none) :
    d.globalCookie (some c) cookie serviceName flags now = .ok (some (reservedCookie,d.cookieTable)) := by
  have hlookup := (CookieTable.lookup_application_none hlinked).mpr hnone
  rcases hc with rfl | rfl
  · simp only [globalCookie,hlookup]
    rfl
  · simp only [globalCookie,hlookup]
    rfl

end GlobalCookies

end Sending

section Receiving

variable {error : Bytes} {entry : XidEntry Bytes}

-- The error with the application's transaction id, cookie and flags in the flow_mod that it quotes.
def restored (error : Bytes) (xid : UInt32) (application : ApplicationEntry) : Bytes :=
  overwrite (overwrite (overwrite error 16 (toNet32 xid)) 60 (toNet64 application.cookie)) 82
    (toNet16 application.flags)

section Restoration

variable {xid : UInt32} {application : ApplicationEntry}

theorem length_quoted_xid (xid : UInt32) (h : 84 ≤ error.length) :
    (overwrite error 16 (toNet32 xid)).length = error.length := length_overwrite (by simp; omega)

theorem length_quoted_cookie (xid : UInt32) (cookie : UInt64) (h : 84 ≤ error.length) :
    (overwrite (overwrite error 16 (toNet32 xid)) 60 (toNet64 cookie)).length = error.length := by
  have hlen := length_quoted_xid xid h
  rw [length_overwrite (by simp; omega),hlen]

theorem length_restored (h : 84 ≤ error.length) : (restored error xid application).length = error.length := by
  have hlen := length_quoted_cookie xid application.cookie h
  rw [restored,length_overwrite (by simp; omega),hlen]

theorem header_restored (h : 84 ≤ error.length) :
    be32 (restored error xid application) 4 = be32 error 4 := by
  have hlen := length_quoted_xid xid h
  have hlen' := length_quoted_cookie xid application.cookie h
  rw [restored,be32_overwrite_apart (by simp; omega) (.inl (by omega)),
    be32_overwrite_apart (by simp; omega) (.inl (by omega)),
    be32_overwrite_apart (by simp; omega) (.inl (by omega))]

theorem xid_restored (h : 84 ≤ error.length) : be32 (restored error xid application) 16 = xid := by
  have hlen := length_quoted_xid xid h
  have hlen' := length_quoted_cookie xid application.cookie h
  rw [restored,be32_overwrite_apart (by simp; omega) (.inl (by omega)),
    be32_overwrite_apart (by simp; omega) (.inl (by omega)),be32_overwrite _ (by omega)]

theorem cookie_restored (h : 84 ≤ error.length) :
    be64 (restored error xid application) 60 = application.cookie := by
  have hlen := length_quoted_xid xid h
  have hlen' := length_quoted_cookie xid application.cookie h
  rw [restored,be64_overwrite_apart (by simp; omega) (.inl (by omega)),be64_overwrite _ (by omega)]

theorem command_restored (h : 84 ≤ error.length) :
    be16 (restored error xid application) 68 = be16 error 68 := by
  have hlen := length_quoted_xid xid h
  have hlen' := length_quoted_cookie xid application.cookie h
  rw [restored,be16_overwrite_apart (by simp; omega) (.inl (by omega)),
    be16_overwrite_apart (by simp; omega) (.inr (by simp)),
    be16_overwrite_apart (by simp; omega) (.inr (by simp))]

end Restoration

section Failures

variable (h : 84 ≤ error.length) (hx : d.xidTable.lookupXidEntry (be32 error 16) = some entry)

include h hx

theorem restoreXid_eq : d.restoreXid error = .ok (overwrite error 16 (toNet32 entry.originalXid)) := by
  rw [restoreXid,quotedFlowMod,net32_inside (by omega),ok_bind,hx]
  exact store_eq_overwrite (by simp; omega)

theorem recvFlowModFailed_eq : d.recvFlowModFailed error (error.length - 12) =
    if be64 error 60 = reservedCookie then pure none
    else if d.cookieTranslation = true then do
      let restored ← d.restoreFlowMod (overwrite error 16 (toNet32 entry.originalXid))
        (error.length - 12) (be64 error 60)
      pure (some restored)
    else pure (some (overwrite error 16 (toNet32 entry.originalXid),d)) := by
  have hlen := length_quoted_xid entry.originalXid h
  have hkeep : be64 (overwrite error 16 (toNet32 entry.originalXid)) (12 + 48) = be64 error 60 :=
    be64_overwrite_apart (by simp; omega) (.inr (by simp))
  rw [recvFlowModFailed,if_neg (by omega),restoreXid_eq h hx,ok_bind,quotedFlowMod,
    net64_inside (by omega),ok_bind,hkeep]

theorem recvFlowModFailed_translated (hcookie : be64 error 60 ≠ reservedCookie)
    (hon : d.cookieTranslation = true) {id : EntryId} {e : CookieEntry}
    (hid : d.cookieTable.lookupCookieEntryByCookie (be64 error 60) = some id)
    (he : d.cookieTable.heap id = some e) {d' : SwitchInfo}
    (hwithdrawn : (if FlowModCommand.ofCode (be16 error 68) = some .add then d.deleteCookieEntry id
      else pure d) = .ok d') :
    d.recvFlowModFailed error (error.length - 12) =
      .ok (some (restored error entry.originalXid e.application,d')) := by
  have hlen := length_quoted_xid entry.originalXid h
  have hlen' := length_quoted_cookie entry.originalXid e.application.cookie h
  have hlen'' : (restored error entry.originalXid e.application).length = error.length := length_restored h
  have hentry : d.foundEntry id = .ok e := by
    rw [foundEntry,he]
    rfl
  have hrestore : restoreCookie (overwrite error 16 (toNet32 entry.originalXid)) (error.length - 12) e =
      .ok (restored error entry.originalXid e.application) := by
    rw [restoreCookie,writeCookie,quotedFlowMod,store_eq_overwrite (by simp; omega),ok_bind,
      if_pos (by omega),writeFlags]
    exact store_eq_overwrite (by simp; omega)
  have hwithdraw : d.withdrawCookie (restored error entry.originalXid e.application) (error.length - 12)
      (some id) = .ok d' := by
    rw [← hwithdrawn]
    unfold withdrawCookie
    rw [if_pos (by omega),quotedFlowMod,net16_inside (by omega),ok_bind,command_restored h]
  rw [recvFlowModFailed_eq h hx,if_neg hcookie,if_pos hon]
  simp only [restoreFlowMod,hid,hentry,ok_bind,hrestore,hwithdraw]
  rfl

end Failures

section Errors

theorem ofpmsgRecvError_flowMod (hh : Headed error .error 12 65535) (hstate : d.state = .completed)
    (htype : be16 error 8 = ofpetFlowModFailed) {received : Option (Bytes × SwitchInfo)}
    (hreceived : d.recvFlowModFailed error (error.length - 12) = .ok received)
    (hlen : ∀ r ∈ received, 8 ≤ r.1.length) : d.ofpmsgRecvError error =
      .ok ⟨0,received.elim d fun r => r.2.answered r.1⟩ := by
  have hmin := hh.lower
  have hret : d.switchEventRecvError = 0 := if_pos hstate
  have hsub : subSize error.length quotedFlowMod = error.length - 12 := subSize_of_le hmin
  rw [ofpmsgRecvError,net16_inside (by omega),ok_bind,hret,if_neg (by decide),if_pos htype,
    net16_inside (by omega),ok_bind,hh.length,hsub,hreceived,ok_bind]
  cases received with
  | none => rfl
  | some r => exact answer_eq (hlen r rfl)

theorem ofpmsgRecv_error_iff (hh : Headed error .error 12 65535) (env : Surroundings) (r : Exec Outcome) :
    Yields (fun n => d.ofpmsgRecv n env error) r ↔ r = d.ofpmsgRecvError error ∧
      d.ofpmsgRecvError error ≠ .error .outOfFuel := by
  have hacc : Accepts error := validateOpenflowMessage_ok hh ⟨by simp,0,hh.validated⟩
  have htype : OfpType.ofCode (hostByte error 1) = some .error := by
    rw [hh.type,OfpType.ofCode_code]
  rw [ofpmsgRecv_accepted hacc htype]
  exact yields_const _ _

theorem answered_known (hx : d.xidTable.lookupXidEntry (be32 error 4) = some entry) :
    (d.answered error).outputs = d.outputs ++
        [.toService entry.serviceName .message d.datapathId
          (some (overwrite error 4 (toNet32 entry.originalXid)))] ∧
      (d.answered error).cookieTable = d.cookieTable := by
  rw [answered,hx]
  exact ⟨rfl,rfl⟩

end Errors

end Receiving

section Quotation

variable {xid : UInt32} {code : UInt16} {flowMod : Bytes}

def flowModError (xid : UInt32) (code : UInt16) (flowMod : Bytes) : Bytes :=
  framed xid .error (toNet16 ofpetFlowModFailed ++ toNet16 code ++ flowMod)

theorem length_flowModError : (flowModError xid code flowMod).length = 12 + flowMod.length := by
  rw [flowModError,length_framed]
  simp
  omega

theorem headed_flowModError (h : 12 + flowMod.length ≤ 65535) :
    Headed (flowModError xid code flowMod) .error 12 65535 := by
  refine headed_framed ?_ ?_ ?_
  · simp
    omega
  · simp
    omega
  · simp
    omega

theorem holds_flowModError : Holds (flowModError xid code flowMod) 12 flowMod :=
  holds_framed_tail (by simp)

theorem type_flowModError : be16 (flowModError xid code flowMod) 8 = ofpetFlowModFailed := by
  have hhead : Holds (flowModError xid code flowMod) 8 (toNet16 ofpetFlowModFailed ++ toNet16 code) :=
    holds_framed_head
  obtain ⟨htype,_⟩ := Holds.append.mp hhead
  rw [Holds,length_toNet16] at htype
  rw [be16,htype,ofNat_beNat_toNet16]

theorem xid_flowModError : be32 (flowModError xid code flowMod) 4 = xid := be32_xid

theorem quoted_xid (h : 72 ≤ flowMod.length) :
    be32 (flowModError xid code flowMod) 16 = be32 flowMod 4 :=
  holds_flowModError.be32 (i := 4) (by omega)

theorem quoted_cookie (h : 72 ≤ flowMod.length) :
    be64 (flowModError xid code flowMod) 60 = be64 flowMod 48 :=
  holds_flowModError.be64 (i := 48) (by omega)

theorem quoted_command (h : 72 ≤ flowMod.length) :
    be16 (flowModError xid code flowMod) 68 = be16 flowMod 56 :=
  holds_flowModError.be16 (i := 56) (by omega)

end Quotation

end SwitchInfo

-- The entries of the table, by cookie and service, with their reference counts.
def CookieTable.references (t : CookieTable) (key : ApplicationKey) : Option Int :=
  (t.entryOf key).map fun e => e.referenceCount.toInt

namespace SwitchInfo

section Undoing

variable (d : SwitchInfo) (message serviceName : Bytes) (now : Int) (code : UInt16) (env : Surroundings)

-- The flow_mod goes out as `flowMod`.
def Forwarded (d₁ : SwitchInfo) (flowMod : Bytes) : Prop :=
  d.ofpmsgSend message serviceName now = .ok ⟨0,d₁⟩ ∧ d₁.outputs = d.outputs ++ [.toSwitch flowMod]

-- What the switch's error does that quotes the flow_mod as it went out, wherever it went out.
def Undone : Prop :=
  (∃ outcome, d.ofpmsgSend message serviceName now = .ok outcome) ∧
  ∀ d₁ flowMod, d.Forwarded message serviceName now d₁ flowMod →
    ∃ d₂ reply, Yields (fun n => d₁.ofpmsgRecv n env (flowModError (be32 flowMod 4) code flowMod))
        (.ok ⟨0,d₂⟩) ∧
      (∀ key, d₂.cookieTable.references key = d.cookieTable.references key) ∧
      d₂.outputs = d₁.outputs ++ [.toService serviceName .message d.datapathId (some reply)] ∧
      be32 reply 4 = be32 message 4 ∧ be32 reply 16 = be32 message 4 ∧ be64 reply 60 = be64 message 48

def sentEntry : Option CookieEntry :=
  d.cookieTable.entryOf ⟨be64 message 48,copyServiceName serviceName⟩

def UndoneCommand : FlowModCommand → Prop
  | .add => ∀ e, d.sentEntry message serviceName = some e → e.referenceCount.toInt < 2147483647
  | _ => (d.sentEntry message serviceName).isSome

-- A flow_mod whose command is undefined stays in the daemon while cookies are translated.
def Undoable : Prop :=
  if d.cookieTranslation = true then
    ∀ c, FlowModCommand.ofCode (be16 message 56) = some c →
      d.state = .completed ∧ d.UndoneCommand message serviceName c
  else d.state = .completed ∧ be64 message 48 ≠ reservedCookie

end Undoing

section Exchange

variable {d : SwitchInfo} {message serviceName : Bytes} {now : Int} {code : UInt16} {env : Surroundings}

theorem undone_iff_answer {d₁ : SwitchInfo} {flowMod : Bytes} {outcome : Outcome}
    (hsend : d.ofpmsgSend message serviceName now = .ok ⟨0,d₁⟩)
    (hout : d₁.outputs = d.outputs ++ [.toSwitch flowMod]) (hsize : 12 + flowMod.length ≤ 65535)
    (hrecv : d₁.ofpmsgRecvError (flowModError (be32 flowMod 4) code flowMod) = .ok outcome) :
    d.Undone message serviceName now code env ↔ outcome.ret = 0 ∧
      (∀ key, outcome.info.cookieTable.references key = d.cookieTable.references key) ∧
      ∃ reply, outcome.info.outputs = d₁.outputs ++
          [.toService serviceName .message d.datapathId (some reply)] ∧
        be32 reply 4 = be32 message 4 ∧ be32 reply 16 = be32 message 4 ∧
          be64 reply 60 = be64 message 48 := by
  have hheaded : Headed (flowModError (be32 flowMod 4) code flowMod) .error 12 65535 :=
    headed_flowModError hsize
  constructor
  · rintro ⟨_,hundone⟩
    obtain ⟨d₂,reply,hrecv',hrefs,houtputs,hfields⟩ := hundone d₁ flowMod ⟨hsend,hout⟩
    obtain ⟨houtcome,_⟩ := (ofpmsgRecv_error_iff hheaded env _).mp hrecv'
    rw [hrecv] at houtcome
    injection houtcome with houtcome
    rw [← houtcome]
    exact ⟨rfl,hrefs,reply,houtputs,hfields⟩
  · rintro ⟨hret,hrefs,reply,houtputs,hfields⟩
    refine ⟨⟨_,hsend⟩,fun d₁' flowMod' ⟨hsend',hout'⟩ => ?_⟩
    rw [hsend] at hsend'
    injection hsend' with hsame
    injection hsame with _ hsame
    subst hsame
    rw [hout] at hout'
    have hsame := List.append_cancel_left hout'
    injection hsame with hsame _
    injection hsame with hsame
    subst hsame
    refine ⟨outcome.info,reply,?_,hrefs,houtputs,hfields⟩
    refine (ofpmsgRecv_error_iff hheaded env _).mpr ⟨?_,by rw [hrecv]; simp⟩
    rw [hrecv,← hret]

theorem not_undone_of_silent {d₁ : SwitchInfo} {flowMod : Bytes} {outcome : Outcome}
    (hsend : d.ofpmsgSend message serviceName now = .ok ⟨0,d₁⟩)
    (hout : d₁.outputs = d.outputs ++ [.toSwitch flowMod]) (hsize : 12 + flowMod.length ≤ 65535)
    (hrecv : d₁.ofpmsgRecvError (flowModError (be32 flowMod 4) code flowMod) = .ok outcome)
    (hsilent : outcome.info.outputs = d₁.outputs) : ¬ d.Undone message serviceName now code env := by
  rw [undone_iff_answer hsend hout hsize hrecv]
  rintro ⟨_,_,reply,houtputs,_⟩
  rw [hsilent] at houtputs
  exact absurd houtputs (by simp)

variable (d message serviceName) in
def afterSend (table : CookieTable) (flowMod : Bytes) : SwitchInfo :=
  emit { d.insertXidEntry (be32 message 4) serviceName with cookieTable := table } (.toSwitch flowMod)

variable (hxids : d.xidTable.Consistent) (hsending : d.sending = true)

variable (d message serviceName) in
theorem lookup_afterSend (hxids : d.xidTable.Consistent) (table : CookieTable) (flowMod : Bytes) :
    ∃ entry, (d.afterSend message serviceName table flowMod).xidTable.lookupXidEntry d.insertedXid =
      some entry ∧ entry.originalXid = be32 message 4 ∧ entry.serviceName = serviceName :=
  ⟨_,(XidTable.lookup_insert_iff hxids).mpr (.inl ⟨rfl,rfl⟩),rfl,rfl⟩

include hsending in
theorem ofpmsgSend_afterSend (hh : Headed message .flowMod 72 65535) (hon : d.cookieTranslation = true)
    {cookie : UInt64} {table : CookieTable}
    (hglobal : d.globalCookie (FlowModCommand.ofCode (be16 message 56)) (be64 message 48) serviceName
      (be16 message 70) now = .ok (some (cookie,table))) :
    d.ofpmsgSend message serviceName now = .ok ⟨0,d.afterSend message serviceName table
      (forwarded message d.insertedXid cookie (be16 message 70 ||| ofpffSendFlowRem))⟩ := by
  rw [ofpmsgSend_flowMod hh hon hglobal]
  exact congrArg _ (if_pos hsending)

include hxids in
theorem ofpmsgRecvError_afterSend {flowMod : Bytes} (hmin : 72 ≤ flowMod.length)
    (hsize : 12 + flowMod.length ≤ 65535) (hxid : be32 flowMod 4 = d.insertedXid)
    (hon : d.cookieTranslation = true) (hstate : d.state = .completed)
    (hcookie : be64 flowMod 48 ≠ reservedCookie) {table table' : CookieTable} {id : EntryId}
    {e : CookieEntry} (hid : table.lookupCookieEntryByCookie (be64 flowMod 48) = some id)
    (he : table.heap id = some e)
    (hwithdrawn : (if FlowModCommand.ofCode (be16 flowMod 56) = some .add then table.deleteCookieEntry id
      else some table) = some table') :
    ∃ outcome reply, (d.afterSend message serviceName table flowMod).ofpmsgRecvError
        (flowModError (be32 flowMod 4) code flowMod) = .ok outcome ∧
      outcome.ret = 0 ∧ outcome.info.cookieTable = table' ∧
      outcome.info.outputs = (d.afterSend message serviceName table flowMod).outputs ++
        [.toService serviceName .message d.datapathId (some reply)] ∧
      be32 reply 4 = be32 message 4 ∧ be32 reply 16 = be32 message 4 ∧
      be64 reply 60 = e.application.cookie := by
  obtain ⟨entry,hentry,horiginal,hservice⟩ := d.lookup_afterSend message serviceName hxids table flowMod
  generalize herror : flowModError (be32 flowMod 4) code flowMod = error
  have hlong : 84 ≤ error.length := by
    rw [← herror,length_flowModError]
    omega
  have hquoted : (d.afterSend message serviceName table flowMod).xidTable.lookupXidEntry
      (be32 error 16) = some entry := by
    rw [← herror,quoted_xid hmin,hxid]
    exact hentry
  have hquotedCookie : be64 error 60 = be64 flowMod 48 := by rw [← herror,quoted_cookie hmin]
  have hquotedCommand : be16 error 68 = be16 flowMod 56 := by rw [← herror,quoted_command hmin]
  have hd' : (if FlowModCommand.ofCode (be16 error 68) = some .add
      then (d.afterSend message serviceName table flowMod).deleteCookieEntry id
      else pure (d.afterSend message serviceName table flowMod)) =
        .ok (d.afterSend message serviceName table' flowMod) := by
    rw [hquotedCommand]
    split
    · rename_i hadd
      rw [if_pos hadd] at hwithdrawn
      have hdelete : (d.afterSend message serviceName table flowMod).cookieTable.deleteCookieEntry id =
          some table' := hwithdrawn
      rw [deleteCookieEntry,hdelete]
      rfl
    · rename_i hadd
      rw [if_neg hadd] at hwithdrawn
      rw [Option.some.inj hwithdrawn]
      rfl
  have hreceived := recvFlowModFailed_translated hlong hquoted (by rw [hquotedCookie]; exact hcookie)
    (show (d.afterSend message serviceName table flowMod).cookieTranslation = true from hon)
    (by rw [hquotedCookie]; exact hid) he hd'
  have hrestored : (restored error entry.originalXid e.application).length = error.length :=
    length_restored hlong
  have hanswer : (d.afterSend message serviceName table' flowMod).xidTable.lookupXidEntry
      (be32 (restored error entry.originalXid e.application) 4) = some entry := by
    rw [header_restored hlong,← herror,xid_flowModError,hxid]
    exact hentry
  obtain ⟨houtputs,htable⟩ := answered_known hanswer
  have hheaded : Headed error .error 12 65535 := by
    rw [← herror]
    exact headed_flowModError hsize
  have htype : be16 error 8 = ofpetFlowModFailed := by rw [← herror,type_flowModError]
  have hstate' : (d.afterSend message serviceName table flowMod).state = .completed := hstate
  have hrecv := ofpmsgRecvError_flowMod hheaded hstate' htype hreceived
    (by simp only [Option.mem_some,forall_eq']; omega)
  refine ⟨_,overwrite (restored error entry.originalXid e.application) 4 (toNet32 entry.originalXid),
    hrecv,rfl,htable,?_,?_,?_,?_⟩
  · rw [hservice] at houtputs
    exact houtputs
  · rw [← horiginal]
    exact be32_overwrite _ (by omega)
  · rw [be32_overwrite_apart (by simp; omega) (.inr (by simp)),xid_restored hlong,horiginal]
  · rw [be64_overwrite_apart (by simp; omega) (.inr (by simp)),cookie_restored hlong]

section Quoted

variable {table : CookieTable} {flowMod : Bytes}
  (hsend : d.ofpmsgSend message serviceName now = .ok ⟨0,d.afterSend message serviceName table flowMod⟩)
  (hmin : 72 ≤ flowMod.length) (hsize : 12 + flowMod.length ≤ 65535)
  (hxid : be32 flowMod 4 = d.insertedXid)

include hsend hsize

theorem not_undone_early (hstate : d.state ≠ .completed) :
    ¬ d.Undone message serviceName now code env :=
  not_undone_of_silent hsend rfl hsize (ofpmsgRecvError_early (headed_flowModError hsize) hstate) rfl

include hxids hmin hxid

theorem not_undone_reserved (hstate : d.state = .completed) (hcookie : be64 flowMod 48 = reservedCookie) :
    ¬ d.Undone message serviceName now code env := by
  obtain ⟨entry,hentry,_⟩ := d.lookup_afterSend message serviceName hxids table flowMod
  have hreceived : (d.afterSend message serviceName table flowMod).recvFlowModFailed
      (flowModError (be32 flowMod 4) code flowMod)
      ((flowModError (be32 flowMod 4) code flowMod).length - 12) = .ok none := by
    have hquoted : (d.afterSend message serviceName table flowMod).xidTable.lookupXidEntry
        (be32 (flowModError (be32 flowMod 4) code flowMod) 16) = some entry := by
      rw [quoted_xid hmin,hxid]
      exact hentry
    rw [recvFlowModFailed_eq (by rw [length_flowModError]; omega) hquoted,quoted_cookie hmin,
      if_pos hcookie]
    rfl
  have hstate' : (d.afterSend message serviceName table flowMod).state = .completed := hstate
  exact not_undone_of_silent hsend rfl hsize (ofpmsgRecvError_flowMod (headed_flowModError hsize) hstate'
    type_flowModError hreceived (by simp)) rfl

theorem undone_iff_references (hon : d.cookieTranslation = true) (hstate : d.state = .completed)
    (hcookie : be64 flowMod 48 ≠ reservedCookie) {id : EntryId} {e : CookieEntry}
    (hid : table.lookupCookieEntryByCookie (be64 flowMod 48) = some id) (he : table.heap id = some e)
    (happ : e.application.cookie = be64 message 48) {table' : CookieTable}
    (hwithdrawn : (if FlowModCommand.ofCode (be16 flowMod 56) = some .add then table.deleteCookieEntry id
      else some table) = some table') :
    d.Undone message serviceName now code env ↔
      ∀ key, table'.references key = d.cookieTable.references key := by
  obtain ⟨outcome,reply,hrecv,hret,htable,houtputs,hxid₁,hxid₂,hcookie'⟩ :=
    ofpmsgRecvError_afterSend hxids hmin hsize hxid hon hstate hcookie hid he hwithdrawn
  rw [undone_iff_answer hsend rfl hsize hrecv,htable]
  constructor
  · rintro ⟨_,hrefs,_⟩
    exact hrefs
  · intro hrefs
    exact ⟨hret,hrefs,reply,houtputs,hxid₁,hxid₂,hcookie'.trans happ⟩

theorem undone_untranslated (hoff : d.cookieTranslation = false) (hstate : d.state = .completed)
    (hcookie : be64 flowMod 48 ≠ reservedCookie) (hsame : be64 flowMod 48 = be64 message 48)
    (htable : table = d.cookieTable) : d.Undone message serviceName now code env := by
  obtain ⟨entry,hentry,horiginal,hservice⟩ := d.lookup_afterSend message serviceName hxids table flowMod
  generalize herror : flowModError (be32 flowMod 4) code flowMod = error
  have hlong : 84 ≤ error.length := by
    rw [← herror,length_flowModError]
    omega
  have hquoted : (d.afterSend message serviceName table flowMod).xidTable.lookupXidEntry
      (be32 error 16) = some entry := by
    rw [← herror,quoted_xid hmin,hxid]
    exact hentry
  have hquotedCookie : be64 error 60 = be64 flowMod 48 := by rw [← herror,quoted_cookie hmin]
  have hlen := length_quoted_xid entry.originalXid hlong
  have hoff' : ¬ (d.afterSend message serviceName table flowMod).cookieTranslation = true := by
    rw [Bool.not_eq_true]
    exact hoff
  have hreceived : (d.afterSend message serviceName table flowMod).recvFlowModFailed error
      (error.length - 12) = .ok (some (overwrite error 16 (toNet32 entry.originalXid),
        d.afterSend message serviceName table flowMod)) := by
    rw [recvFlowModFailed_eq hlong hquoted,hquotedCookie,if_neg hcookie,if_neg hoff']
    rfl
  have hanswer : (d.afterSend message serviceName table flowMod).xidTable.lookupXidEntry
      (be32 (overwrite error 16 (toNet32 entry.originalXid)) 4) = some entry := by
    rw [be32_overwrite_apart (by simp; omega) (.inl (by omega)),← herror,xid_flowModError,hxid]
    exact hentry
  obtain ⟨houtputs,htable'⟩ := answered_known hanswer
  have hheaded : Headed error .error 12 65535 := by
    rw [← herror]
    exact headed_flowModError hsize
  have htype : be16 error 8 = ofpetFlowModFailed := by rw [← herror,type_flowModError]
  have hstate' : (d.afterSend message serviceName table flowMod).state = .completed := hstate
  have hrecv := ofpmsgRecvError_flowMod hheaded hstate' htype hreceived
    (by simp only [Option.mem_some,forall_eq']; omega)
  rw [hservice] at houtputs
  rw [← herror] at hrecv
  refine (undone_iff_answer hsend rfl hsize hrecv).mpr ⟨rfl,fun key => ?_,
    overwrite (overwrite error 16 (toNet32 entry.originalXid)) 4 (toNet32 entry.originalXid),?_,?_,?_,?_⟩
  · have hkept : ((d.afterSend message serviceName table flowMod).answered
        (overwrite error 16 (toNet32 entry.originalXid))).cookieTable = d.cookieTable :=
      htable'.trans htable
    rw [herror]
    exact congrArg (fun t => CookieTable.references t key) hkept
  · rw [herror]
    exact houtputs
  · rw [← horiginal]
    exact be32_overwrite _ (by omega)
  · rw [be32_overwrite_apart (by simp; omega) (.inr (by simp)),be32_overwrite _ (by omega),horiginal]
  · rw [be64_overwrite_apart (by simp; omega) (.inr (by simp)),
      be64_overwrite_apart (by simp; omega) (.inr (by simp)),hquotedCookie,hsame]

end Quoted

section Commands

variable (hlinked : d.cookieTable.Linked) (hh : Headed message .flowMod 72 65535)
  (hsize : 12 + message.length ≤ 65535) (hon : d.cookieTranslation = true) {c : FlowModCommand}
  (hcommand : FlowModCommand.ofCode (be16 message 56) = some c)

-- The flow_mod as it is handed to the switch.
structure Handed (d : SwitchInfo) (message serviceName : Bytes) (now : Int) (cookie : UInt64)
    (table : CookieTable) (flowMod : Bytes) : Prop where
  send : d.ofpmsgSend message serviceName now = .ok ⟨0,d.afterSend message serviceName table flowMod⟩
  lower : 72 ≤ flowMod.length
  upper : 12 + flowMod.length ≤ 65535
  xid : be32 flowMod 4 = d.insertedXid
  cookie : be64 flowMod 48 = cookie
  command : be16 flowMod 56 = be16 message 56

include hsending hh hsize in
theorem handed_untranslated (hoff : d.cookieTranslation = false) :
    ∃ flowMod, Handed d message serviceName now (be64 message 48) d.cookieTable flowMod := by
  have hmin := hh.lower
  have hlen := length_renumbered d.insertedXid hmin
  refine ⟨overwrite message 4 (toNet32 d.insertedXid),?_,by omega,by omega,be32_overwrite _ (by omega),
    be64_overwrite_apart (by simp; omega) (.inr (by simp)),
    be16_overwrite_apart (by simp; omega) (.inr (by simp))⟩
  rw [ofpmsgSend_untranslated hh hoff]
  exact congrArg _ (if_pos hsending)

include hsending hh hsize hon hcommand

theorem handed_translated {cookie : UInt64} {table : CookieTable}
    (hglobal : d.globalCookie (some c) (be64 message 48) serviceName (be16 message 70) now =
      .ok (some (cookie,table))) : ∃ flowMod, Handed d message serviceName now cookie table flowMod := by
  have hmin := hh.lower
  have hlen := length_forwarded d.insertedXid cookie (be16 message 70 ||| ofpffSendFlowRem) hmin
  rw [← hcommand] at hglobal
  exact ⟨_,ofpmsgSend_afterSend hsending hh hon hglobal,by omega,by omega,xid_forwarded _ _ _ hmin,
    cookie_forwarded _ _ _ hmin,command_forwarded _ _ _ hmin⟩

include hxids hlinked

-- An entry that stands for the flow_mod's cookie already, and a command that leaves the table as it is.
theorem undone_known (hstate : d.state = .completed) (hc : c ≠ .add) {e : CookieEntry}
    (he : d.sentEntry message serviceName = some e) : d.Undone message serviceName now code env := by
  have hglobal : d.globalCookie (some c) (be64 message 48) serviceName (be16 message 70) now =
      .ok (some (e.cookie,d.cookieTable)) := globalCookie_known hc he
  obtain ⟨flowMod,h⟩ := handed_translated hsending hh hsize hon hcommand hglobal
  have hkey := CookieTable.entry_keyed hlinked he
  obtain ⟨id,hid,hheap⟩ := (CookieTable.lookup_cookie_iff hlinked).mpr
    ⟨rfl,by rw [hkey]; exact he⟩
  have hcommand' : ¬ FlowModCommand.ofCode (be16 flowMod 56) = some .add := by
    rw [h.command,hcommand]
    simpa using hc
  refine (undone_iff_references hxids h.send h.lower h.upper h.xid hon hstate ?_
    (by rw [h.cookie]; exact hid) hheap (congrArg ApplicationKey.cookie hkey)
    (if_neg hcommand')).mpr fun key => rfl
  rw [h.cookie]
  exact (CookieTable.entry_sound hlinked he).notReserved

theorem not_undone_deletion (hstate : d.state = .completed) (hc : c = .delete ∨ c = .deleteStrict)
    (hnone : d.sentEntry message serviceName = none) : ¬ d.Undone message serviceName now code env := by
  have hglobal : d.globalCookie (some c) (be64 message 48) serviceName (be16 message 70) now =
      .ok (some (reservedCookie,d.cookieTable)) := globalCookie_reserved hlinked hc hnone
  obtain ⟨flowMod,h⟩ := handed_translated hsending hh hsize hon hcommand hglobal
  exact not_undone_reserved hxids h.send h.lower h.upper h.xid hstate h.cookie

-- The count of the entry wraps around, and the error takes the entry away.
theorem not_undone_overflow (hstate : d.state = .completed) (hc : c = .add) {e : CookieEntry}
    (he : d.sentEntry message serviceName = some e) (hcount : ¬ e.referenceCount.toInt < 2147483647) :
    ¬ d.Undone message serviceName now code env := by
  obtain ⟨id,hid,hheap⟩ := CookieTable.lookup_application_iff.mpr he
  have hkey := CookieTable.entry_keyed hlinked he
  have hsound := CookieTable.entry_sound hlinked he
  let e' : CookieEntry := ⟨e.cookie,{ e.application with flags := e.application.flags ||| be16 message 70 },
    e.referenceCount + 1,now + cookieEntryLifetime⟩
  have hinsert : d.cookieTable.insertCookieEntry (be64 message 48) serviceName (be16 message 70) now =
      some (e.cookie,d.cookieTable.writeEntry id (some e')) := by
    simp only [CookieTable.insertCookieEntry,hid,hheap]
    rfl
  obtain ⟨flowMod,h⟩ := handed_translated hsending hh hsize hon hcommand
    (globalCookie_inserted hlinked (.inl hc) hinsert)
  have hcommand' : FlowModCommand.ofCode (be16 flowMod 56) = some .add := by
    rw [h.command,hcommand,hc]
  have hglobal : (d.cookieTable.writeEntry id (some e')).lookupCookieEntryByCookie e.cookie = some id :=
    (hlinked.global e.cookie id).mpr ⟨e,hheap,rfl⟩
  have hheap' : (d.cookieTable.writeEntry id (some e')).heap id = some e' := by
    rw [CookieTable.heap_write,if_pos rfl]
  have hmost : e.referenceCount.toInt = 2147483647 := by
    have := e.referenceCount.toInt_lt
    omega
  have hwrapped : ¬ e'.referenceCount > 1 := by
    have hcount' : e'.referenceCount = Int32.ofInt 2147483647 + 1 := by
      rw [← hmost,Int32.ofInt_toInt]
    rw [hcount']
    decide
  have hdelete : (d.cookieTable.writeEntry id (some e')).deleteCookieEntry id =
      some ((d.cookieTable.writeEntry id (some e')).removeCookieEntry id e') := by
    rw [CookieTable.deleteCookieEntry,hheap']
    exact if_neg hwrapped
  rw [undone_iff_references hxids h.send h.lower h.upper h.xid hon hstate
    (by rw [h.cookie]; exact hsound.notReserved) (by rw [h.cookie]; exact hglobal) hheap'
    (congrArg ApplicationKey.cookie hkey) ((if_pos hcommand').trans hdelete)]
  intro hrefs
  have hold := hrefs e.key
  have hgone : ((d.cookieTable.writeEntry id (some e')).removeCookieEntry id e').lookupKey e.key = none := by
    have hremove := Table.lookup_delete_exact compareApplication_iff hlinked.validApplication e.key e.key
    rwa [if_pos rfl] at hremove
  rw [CookieTable.references,CookieTable.references,CookieTable.lookupKey_none hgone,
    CookieTable.entryOf_self hlinked hheap] at hold
  exact absurd hold (by simp)

variable (hroom : d.cookieTable.Room)

include hroom

theorem not_undone_modification (hstate : d.state = .completed) (hc : c = .modify ∨ c = .modifyStrict)
    (hnone : d.sentEntry message serviceName = none) : ¬ d.Undone message serviceName now code env := by
  obtain ⟨t,e,hinsert,hlinked',hkey,_,_,hentries⟩ := CookieTable.insert_effect hlinked hroom
    (be64 message 48) serviceName (be16 message 70) now (fun x hx => by
      rw [sentEntry] at hnone
      rw [hnone] at hx
      simp at hx)
  obtain ⟨flowMod,h⟩ := handed_translated hsending hh hsize hon hcommand
    (globalCookie_inserted hlinked (.inr ⟨hc,hnone⟩) hinsert)
  have hself : t.entryOf e.key = some e := by rw [hentries,if_pos hkey]
  obtain ⟨id,hid,hheap⟩ := (CookieTable.lookup_cookie_iff hlinked').mpr ⟨rfl,hself⟩
  have hcommand' : ¬ FlowModCommand.ofCode (be16 flowMod 56) = some .add := by
    rw [h.command,hcommand]
    rcases hc with rfl | rfl
    · simp
    · simp
  rw [undone_iff_references hxids h.send h.lower h.upper h.xid hon hstate
    (by rw [h.cookie]; exact (CookieTable.entry_sound hlinked' hself).notReserved)
    (by rw [h.cookie]; exact hid) hheap (congrArg ApplicationKey.cookie hkey) (if_neg hcommand')]
  intro hrefs
  have hnew := hrefs ⟨be64 message 48,copyServiceName serviceName⟩
  rw [sentEntry] at hnone
  rw [CookieTable.references,CookieTable.references,hentries,if_pos rfl,hnone] at hnew
  exact absurd hnew (by simp)

theorem undone_addition (hstate : d.state = .completed) (hc : c = .add)
    (hcount : ∀ e, d.sentEntry message serviceName = some e → e.referenceCount.toInt < 2147483647) :
    d.Undone message serviceName now code env := by
  obtain ⟨t,e,hinsert,hlinked',hkey,hinserted,_,hentries⟩ := CookieTable.insert_effect hlinked hroom
    (be64 message 48) serviceName (be16 message 70) now hcount
  obtain ⟨flowMod,h⟩ := handed_translated hsending hh hsize hon hcommand
    (globalCookie_inserted hlinked (.inl hc) hinsert)
  have hself : t.entryOf e.key = some e := by rw [hentries,if_pos hkey]
  have hsound := CookieTable.entry_sound hlinked' hself
  obtain ⟨id,hid,hheap⟩ := (CookieTable.lookup_cookie_iff hlinked').mpr ⟨rfl,hself⟩
  obtain ⟨t',hdelete,_,hentries'⟩ := CookieTable.delete_effect hlinked' hheap
  have hcommand' : FlowModCommand.ofCode (be16 flowMod 56) = some .add := by
    rw [h.command,hcommand,hc]
  refine (undone_iff_references hxids h.send h.lower h.upper h.xid hon hstate
    (by rw [h.cookie]; exact hsound.notReserved) (by rw [h.cookie]; exact hid) hheap
    (congrArg ApplicationKey.cookie hkey) ((if_pos hcommand').trans hdelete)).mpr fun key => ?_
  rw [CookieTable.references,CookieTable.references,hentries',hentries,hkey]
  split
  · rename_i hsame
    rw [hsame,CookieTable.released]
    have hgt : e.referenceCount > 1 ↔ e.referenceCount.toInt > 1 := Int32.lt_iff_toInt_lt
    have hcounted := hinserted.counted
    cases hold : d.cookieTable.entryOf ⟨be64 message 48,copyServiceName serviceName⟩ with
    | none =>
      rw [hold] at hcounted
      have hone : e.referenceCount.toInt = 1 := by
        rw [hcounted]
        rfl
      rw [if_neg (by rw [hgt]; omega)]
    | some old =>
      rw [hold] at hcounted
      have hpos := (CookieTable.entry_sound hlinked hold).referenced
      have hsum : e.referenceCount.toInt = old.referenceCount.toInt + 1 := by
        rw [hcounted]
        exact CookieTable.toInt_increment hpos (hcount old hold)
      have hback : (e.referenceCount - 1).toInt = old.referenceCount.toInt := by
        rw [CookieTable.toInt_decrement hsound.referenced]
        omega
      rw [if_pos (by rw [hgt]; omega)]
      exact congrArg some hback
  · rfl

end Commands

end Exchange

section Verdict

variable {d : SwitchInfo} {message serviceName : Bytes} {now : Int} {code : UInt16} {env : Surroundings}
  (hxids : d.xidTable.Consistent) (hsending : d.sending = true) (hh : Headed message .flowMod 72 65535)
  (hsize : 12 + message.length ≤ 65535)

include hxids hsending hh hsize

theorem undone_iff_untranslated (hoff : d.cookieTranslation = false) :
    d.Undone message serviceName now code env ↔
      d.state = .completed ∧ be64 message 48 ≠ reservedCookie := by
  obtain ⟨flowMod,h⟩ := handed_untranslated hsending hh hsize hoff
  constructor
  · intro hundone
    by_cases hstate : d.state = .completed
    · refine ⟨hstate,fun hcookie => ?_⟩
      exact not_undone_reserved hxids h.send h.lower h.upper h.xid hstate (h.cookie.trans hcookie) hundone
    · exact absurd hundone (not_undone_early h.send h.upper hstate)
  · rintro ⟨hstate,hcookie⟩
    exact undone_untranslated hxids h.send h.lower h.upper h.xid hoff hstate
      (by rw [h.cookie]; exact hcookie) h.cookie rfl

omit hxids hsending hsize in
theorem undone_undefined (hon : d.cookieTranslation = true)
    (hcommand : FlowModCommand.ofCode (be16 message 56) = none) :
    d.Undone message serviceName now code env := by
  have hsend : d.ofpmsgSend message serviceName now = _ := ofpmsgSend_undefined hh hon hcommand
  refine ⟨⟨_,hsend⟩,fun d₁ flowMod hforwarded => ?_⟩
  have hret := hsend.symm.trans hforwarded.1
  simp at hret

variable (hlinked : d.cookieTable.Linked) (hroom : d.cookieTable.Room)
  (hon : d.cookieTranslation = true) {c : FlowModCommand}
  (hcommand : FlowModCommand.ofCode (be16 message 56) = some c)

include hlinked hroom hon hcommand

theorem undone_iff_completed (hstate : d.state = .completed) :
    d.Undone message serviceName now code env ↔ d.UndoneCommand message serviceName c := by
  cases c with
  | add =>
    constructor
    · intro hundone e he
      by_contra hcount
      exact not_undone_overflow hxids hsending hlinked hh hsize hon hcommand hstate rfl he hcount hundone
    · exact undone_addition hxids hsending hlinked hh hsize hon hcommand hroom hstate rfl
  | modify =>
    cases he : d.sentEntry message serviceName with
    | none =>
      refine iff_of_false (not_undone_modification hxids hsending hlinked hh hsize hon hcommand hroom hstate
        (.inl rfl) he) ?_
      simp [UndoneCommand,he]
    | some e =>
      refine iff_of_true (undone_known hxids hsending hlinked hh hsize hon hcommand hstate (by simp) he) ?_
      simp [UndoneCommand,he]
  | modifyStrict =>
    cases he : d.sentEntry message serviceName with
    | none =>
      refine iff_of_false (not_undone_modification hxids hsending hlinked hh hsize hon hcommand hroom hstate
        (.inr rfl) he) ?_
      simp [UndoneCommand,he]
    | some e =>
      refine iff_of_true (undone_known hxids hsending hlinked hh hsize hon hcommand hstate (by simp) he) ?_
      simp [UndoneCommand,he]
  | delete =>
    cases he : d.sentEntry message serviceName with
    | none =>
      refine iff_of_false (not_undone_deletion hxids hsending hlinked hh hsize hon hcommand hstate
        (.inl rfl) he) ?_
      simp [UndoneCommand,he]
    | some e =>
      refine iff_of_true (undone_known hxids hsending hlinked hh hsize hon hcommand hstate (by simp) he) ?_
      simp [UndoneCommand,he]
  | deleteStrict =>
    cases he : d.sentEntry message serviceName with
    | none =>
      refine iff_of_false (not_undone_deletion hxids hsending hlinked hh hsize hon hcommand hstate
        (.inr rfl) he) ?_
      simp [UndoneCommand,he]
    | some e =>
      refine iff_of_true (undone_known hxids hsending hlinked hh hsize hon hcommand hstate (by simp) he) ?_
      simp [UndoneCommand,he]

omit hxids in
theorem translates : ∃ cookie table flowMod, Handed d message serviceName now cookie table flowMod := by
  have hinsert : ∃ x, d.cookieTable.insertCookieEntry (be64 message 48) serviceName (be16 message 70) now =
      some x := CookieTable.insert_total hlinked hroom _ _ _ _
  obtain ⟨x,hx⟩ := hinsert
  have hglobal : ∃ y, d.globalCookie (some c) (be64 message 48) serviceName (be16 message 70) now =
      .ok (some y) := by
    by_cases hadd : c = .add
    · exact ⟨x,globalCookie_inserted hlinked (.inl hadd) hx⟩
    · cases he : d.sentEntry message serviceName with
      | some e => exact ⟨_,globalCookie_known hadd he⟩
      | none =>
        cases c with
        | add => exact absurd rfl hadd
        | modify => exact ⟨x,globalCookie_inserted hlinked (.inr ⟨.inl rfl,he⟩) hx⟩
        | modifyStrict => exact ⟨x,globalCookie_inserted hlinked (.inr ⟨.inr rfl,he⟩) hx⟩
        | delete => exact ⟨_,globalCookie_reserved hlinked (.inl rfl) he⟩
        | deleteStrict => exact ⟨_,globalCookie_reserved hlinked (.inr rfl) he⟩
  obtain ⟨y,hy⟩ := hglobal
  obtain ⟨flowMod,h⟩ := handed_translated hsending hh hsize hon hcommand hy
  exact ⟨_,_,flowMod,h⟩

theorem undone_iff_translated : d.Undone message serviceName now code env ↔
    d.state = .completed ∧ d.UndoneCommand message serviceName c := by
  by_cases hstate : d.state = .completed
  · rw [undone_iff_completed hxids hsending hh hsize hlinked hroom hon hcommand hstate,
      and_iff_right hstate]
  · obtain ⟨_,_,_,h⟩ := translates hsending hh hsize hlinked hroom hon hcommand
    exact iff_of_false (not_undone_early h.send h.upper hstate) fun hundone => hstate hundone.1

omit hxids hcommand in
theorem forwarded_iff : (∃ d₁ flowMod, d.Forwarded message serviceName now d₁ flowMod) ↔
    FlowModCommand.ofCode (be16 message 56) ≠ none := by
  cases hcommand : FlowModCommand.ofCode (be16 message 56) with
  | none =>
    refine iff_of_false ?_ (by simp)
    rintro ⟨d₁,flowMod,hsend,_⟩
    rw [ofpmsgSend_undefined hh hon hcommand] at hsend
    simp at hsend
  | some c =>
    obtain ⟨_,_,flowMod,h⟩ := translates hsending hh hsize hlinked hroom hon hcommand
    exact iff_of_true ⟨_,flowMod,h.send,rfl⟩ (by simp)

end Verdict

end SwitchInfo

theorem flow_mod_failure_undone_iff (d : SwitchInfo) (events : List CookieEvent)
    (hroomy : initCookieTable.RoomyRun events) (log : List CookieAct)
    (hcookies : initCookieTable.run events = some (log,d.cookieTable)) (hroom : d.cookieTable.Room)
    (xids : List (XidEvent Bytes)) (hxids : d.xidTable = initXidTable.run xids) (hsending : d.sending = true)
    (message serviceName : Bytes) (haccepted : Accepts message)
    (htype : OfpType.ofCode (hostByte message 1) = some .flowMod) (hsize : 12 + message.length ≤ 65535)
    (now : Int) (code : UInt16) (env : Surroundings) :
    (d.Undone message serviceName now code env ↔ d.Undoable message serviceName) ∧
    ((∃ d₁ flowMod, d.Forwarded message serviceName now d₁ flowMod) ↔
      (d.cookieTranslation = true → FlowModCommand.ofCode (be16 message 56) ≠ none)) := by
  have hlinked : d.cookieTable.Linked := CookieTable.linked_of_run hroomy hcookies
  have hconsistent : d.xidTable.Consistent := by
    rw [hxids]
    exact XidTable.init_consistent.run xids
  obtain ⟨t,ht,hvalidated⟩ := haccepted.type
  rw [htype] at ht
  rw [← Option.some.inj ht] at hvalidated
  have hh : Headed message .flowMod 72 65535 := headed_of_accepted hvalidated
  rw [SwitchInfo.Undoable]
  by_cases hon : d.cookieTranslation = true
  · rw [if_pos hon,SwitchInfo.forwarded_iff hsending hh hsize hlinked hroom hon]
    refine ⟨?_,by simp [hon]⟩
    cases hcommand : FlowModCommand.ofCode (be16 message 56) with
    | none => exact iff_of_true (SwitchInfo.undone_undefined hh hon hcommand) (by simp)
    | some c =>
      rw [SwitchInfo.undone_iff_translated hconsistent hsending hh hsize hlinked hroom hon hcommand]
      simp
  · have hoff := Bool.eq_false_iff.mpr hon
    obtain ⟨flowMod,h⟩ := SwitchInfo.handed_untranslated hsending hh hsize hoff
    rw [if_neg hon]
    exact ⟨SwitchInfo.undone_iff_untranslated hconsistent hsending hh hsize hoff,
      iff_of_true ⟨_,flowMod,h.send,rfl⟩ fun hon' => absurd hon' hon⟩

def flowModMessage (command : UInt16) : Bytes :=
  framed 7 .flowMod (toNet32 4194303 ++ List.replicate 36 0 ++ toNet64 5 ++ toNet16 command ++
    List.replicate 14 0)

theorem room_init : initCookieTable.Room := by
  rw [CookieTable.Room]
  decide

theorem flow_mod_failure_undone_addition :
    completedInfo.Undone (flowModMessage 0) [97] 0 2 quietSurroundings ∧
      ∃ d₁ flowMod, completedInfo.Forwarded (flowModMessage 0) [97] 0 d₁ flowMod := by
  have hvalid : Accepts (flowModMessage 0) := ⟨by simp,1,by decide +kernel⟩
  have hcommand : FlowModCommand.ofCode (be16 (flowModMessage 0) 56) = some .add := by decide
  obtain ⟨hundone,hforwarded⟩ := flow_mod_failure_undone_iff completedInfo [] trivial [] rfl room_init []
    rfl rfl (flowModMessage 0) [97] hvalid (by decide) (by decide) 0 2 quietSurroundings
  refine ⟨hundone.mpr ?_,hforwarded.mpr fun _ => by simp [hcommand]⟩
  have hnone : completedInfo.sentEntry (flowModMessage 0) [97] = none := by rfl
  have hon : completedInfo.cookieTranslation = true := by rfl
  rw [SwitchInfo.Undoable,if_pos hon,hcommand]
  rintro c ⟨⟩
  refine ⟨rfl,fun e he => ?_⟩
  rw [hnone] at he
  exact absurd he (by simp)

-- A modification of a cookie that the table does not know leaves its entry behind.
theorem flow_mod_failure_leaks_modification : Accepts (flowModMessage 1) ∧
    ¬ completedInfo.Undone (flowModMessage 1) [97] 0 2 quietSurroundings := by
  have hvalid : Accepts (flowModMessage 1) := ⟨by simp,1,by decide +kernel⟩
  refine ⟨hvalid,?_⟩
  obtain ⟨t,ht,hvalidated⟩ := hvalid.type
  have htype : OfpType.ofCode (hostByte (flowModMessage 1) 1) = some .flowMod := by decide
  rw [htype] at ht
  rw [← Option.some.inj ht] at hvalidated
  have hcommand : FlowModCommand.ofCode (be16 (flowModMessage 1) 56) = some .modify := by decide
  exact SwitchInfo.not_undone_modification XidTable.init_consistent rfl CookieTable.init_linked
    (headed_of_accepted hvalidated) (by decide) rfl hcommand room_init rfl (.inl rfl) rfl

end Trema.SwitchManager
