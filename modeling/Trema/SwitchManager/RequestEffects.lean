import Trema.SwitchManager.ReplyEffects

namespace Trema.SwitchManager

open Library
open OpenFlow

namespace SwitchInfo

variable {d d' : SwitchInfo} {message serviceName : Bytes} {now : Int} {fuel : Nat}

section Cookies

theorem translateFlowmod_eq (hmin : 72 ≤ message.length) (cookie : UInt64) (flags : UInt16) :
    ∃ m, translateFlowmod message cookie flags = .ok m ∧ m.length = message.length ∧
      be32 m 4 = be32 message 4 := by
  have hcookie : 0 + 48 + (toNet64 cookie).length ≤ message.length := by
    simp only [length_toNet64]
    omega
  have hlen := length_overwrite hcookie
  have hflags : 0 + 70 + (toNet16 (flags ||| ofpffSendFlowRem)).length ≤
      (overwrite message (0 + 48) (toNet64 cookie)).length := by
    simp only [length_toNet16]
    omega
  rw [translateFlowmod,writeCookie,store_eq_overwrite hcookie,ok_bind,writeFlags,store_eq_overwrite hflags]
  refine ⟨_,rfl,(length_overwrite hflags).trans hlen,?_⟩
  rw [be32_overwrite_apart hflags (.inl (by omega)),be32_overwrite_apart hcookie (.inl (by omega))]

theorem updateFlowmodCookie_some (hmin : 72 ≤ message.length) {updated : Bytes × CookieTable}
    (h : d.updateFlowmodCookie message serviceName now = .ok (some updated)) :
    updated.1.length = message.length ∧ be32 updated.1 4 = be32 message 4 := by
  rw [updateFlowmodCookie,net16_inside (by omega),ok_bind,net16_inside (by omega),ok_bind,
    net64_inside (by omega),ok_bind] at h
  obtain ⟨found,_,h⟩ := bind_eq_ok.mp h
  cases found with
  | none =>
    injection h with h
    exact absurd h (by simp)
  | some x =>
    obtain ⟨m,hm,hlen,hxid⟩ := translateFlowmod_eq hmin x.1 (be16 message 70)
    simp only [hm,ok_bind] at h
    injection h with h
    injection h with h
    rw [← h]
    exact ⟨hlen,hxid⟩

end Cookies

section Requests

-- A request gets an entry of the xid table, and goes out, if it does, with the entry's transaction id.
structure Registers (message serviceName : Bytes) (d d' : SwitchInfo) : Prop where
  xidTable : d'.xidTable = d.xidTable.insertXidEntry d.insertedXid (be32 message 4) serviceName
  transactionId : d'.transactionId = d.insertedXid
  outputs : (∃ m, d'.outputs = d.outputs ++ [.toSwitch m] ∧ be32 m 4 = d.insertedXid) ∨
    d'.outputs = d.outputs

theorem registers_sent {m : Bytes} {t : CookieTable} (hm : be32 m 4 = d.insertedXid) :
    Registers message serviceName d
      (sent { d.insertXidEntry (be32 message 4) serviceName with cookieTable := t } m).info := by
  have hsending : ({ d.insertXidEntry (be32 message 4) serviceName with cookieTable := t } : SwitchInfo).sending =
      d.sending := rfl
  rw [sent,hsending]
  cases h : d.sending with
  | true => exact ⟨rfl,rfl,.inl ⟨m,rfl,hm⟩⟩
  | false => exact ⟨rfl,rfl,.inr rfl⟩

theorem ofpmsgSend_plain (hmin : 8 ≤ message.length)
    (hplain : ¬ (hostByte message 1 = OfpType.flowMod.code ∧ d.cookieTranslation = true)) :
    d.ofpmsgSend message serviceName now = .ok ((d.insertXidEntry (be32 message 4) serviceName).sent
      (overwrite message 4 (toNet32 d.insertedXid))) := by
  have hfit : 4 + (toNet32 d.insertedXid).length ≤ message.length := by
    simp only [length_toNet32]
    omega
  have hlen := length_overwrite hfit
  have hsame : ¬ (hostByte message 1 = OfpType.flowMod.code ∧
      (d.insertXidEntry (be32 message 4) serviceName).cookieTranslation = true) := hplain
  rw [ofpmsgSend,net32_inside (by omega),ok_bind,store_eq_overwrite hfit,ok_bind,byteAt_inside (by omega),
    ok_bind,hostByte_overwrite_apart hfit (.inl (by omega)),if_neg hsame]
  exact sendToSecureChannel_eq (by omega)

theorem registers_ofpmsgSend {t : OfpType} (hh : Headed message t (minLength t) 65535) {outcome : Outcome}
    (h : d.ofpmsgSend message serviceName now = .ok outcome) :
    Registers message serviceName d outcome.info := by
  have hfits := hh.fits
  have hxid : be32 (overwrite message 4 (toNet32 d.insertedXid)) 4 = d.insertedXid :=
    be32_overwrite _ (by omega)
  by_cases hplain : hostByte message 1 = OfpType.flowMod.code ∧ d.cookieTranslation = true
  · have ht : t = .flowMod := by
      have hofCode := OfpType.ofCode_code t
      rw [← hh.type,hplain.1,OfpType.ofCode_code] at hofCode
      exact (Option.some.inj hofCode).symm
    subst ht
    have hmin : 72 ≤ message.length := hh.lower
    have hfit : 4 + (toNet32 d.insertedXid).length ≤ message.length := by
      simp only [length_toNet32]
      omega
    have hlen := length_overwrite hfit
    have hsame : hostByte message 1 = OfpType.flowMod.code ∧
        (d.insertXidEntry (be32 message 4) serviceName).cookieTranslation = true := hplain
    rw [ofpmsgSend,net32_inside (by omega),ok_bind,store_eq_overwrite hfit,ok_bind,byteAt_inside (by omega),
      ok_bind,hostByte_overwrite_apart hfit (.inl (by omega)),if_pos hsame] at h
    obtain ⟨updated,hupdated,h⟩ := bind_eq_ok.mp h
    cases updated with
    | none =>
      injection h with h
      rw [← h]
      exact ⟨rfl,rfl,.inr rfl⟩
    | some updated =>
      obtain ⟨hlen',hxid'⟩ := updateFlowmodCookie_some (by omega) hupdated
      simp only at h
      rw [sendToSecureChannel_eq (by omega)] at h
      injection h with h
      rw [← h]
      exact registers_sent (hxid'.trans hxid)
  · rw [ofpmsgSend_plain hfits hplain] at h
    injection h with h
    rw [← h]
    exact registers_sent hxid

theorem request_effect {datapathId : UInt64}
    (h : d.handleOpenflowMessage fuel datapathId serviceName message now = .ok d') :
    d.requestXids fuel message datapathId = 0 ∧ d' = d ∨
      d.requestXids fuel message datapathId = 1 ∧ Registers message serviceName d d' := by
  rw [handleOpenflowMessage] at h
  rw [requestXids]
  split at h
  · rename_i hvalid
    have haccepted : Accepts message := ⟨by simp,fuel,hvalid⟩
    obtain ⟨t,ht,htype⟩ := haccepted.type
    rw [hvalid]
    obtain ⟨outcome,hreceived,h⟩ := bind_eq_ok.mp h
    injection h with h
    rw [switchEventRecvFromApplication] at hreceived
    split at hreceived
    · rename_i hother
      injection hreceived with hreceived
      rw [← h,← hreceived]
      exact .inl ⟨if_pos hother,rfl⟩
    · rename_i hsame
      rw [← h]
      exact .inr ⟨if_neg hsame,registers_ofpmsgSend (headed_of_accepted htype) hreceived⟩
  · rename_i hvalid
    injection h with h
    rw [hvalid]
    exact .inl ⟨rfl,h.symm⟩
  · exact absurd h (by simp)

end Requests

end SwitchInfo

end Trema.SwitchManager
