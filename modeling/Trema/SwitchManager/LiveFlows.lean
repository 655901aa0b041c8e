import Trema.SwitchManager.FlowModFailure
import Trema.SwitchManager.FlowTraffic
import Mathlib.Data.List.Perm.Subperm

namespace Trema.SwitchManager

open Library
open OpenFlow

def Flow.key (f : Flow) : ApplicationKey := ⟨be64 f.request 48,f.serviceName⟩

section Mirror

open CookieTable

-- The references of the table mirror the flow_mods and the flows that have been counted.
structure Mirrored (t : CookieTable) (held : List Flow) : Prop where
  mapped : ∀ f ∈ held, ∃ e, t.entryOf f.key = some e ∧ e.cookie = f.cookie ∧
    (f.Flagged → e.application.flags &&& ofpffSendFlowRem ≠ 0)
  counted : ∀ key e, t.entryOf key = some e →
    (held.countP (fun f => f.cookie == e.cookie) : Int) ≤ e.referenceCount.toInt

variable {t t' : CookieTable} {held held' : List Flow} {f : Flow} {e : CookieEntry}

theorem Mirrored.of_subperm (h : Mirrored t held) (hsub : List.Subperm held' held) :
    Mirrored t held' := by
  refine ⟨fun f hf => h.mapped f (hsub.subset hf),fun key e he => ?_⟩
  have hcount := h.counted key e he
  have hle := hsub.countP_le fun f => f.cookie == e.cookie
  omega

theorem flag_or_left {a b : UInt16} (h : a &&& ofpffSendFlowRem ≠ 0) :
    (a ||| b) &&& ofpffSendFlowRem ≠ 0 := by
  rw [ofpffSendFlowRem] at h ⊢
  intro hzero
  apply h
  have hnone : (0 : UInt16).toBitVec = 0#16 := rfl
  rw [← UInt16.toBitVec_inj,UInt16.toBitVec_and,hnone] at hzero ⊢
  rw [UInt16.toBitVec_or] at hzero
  ext i hi
  have hbit := congrArg (fun v : BitVec 16 => v[i]) hzero
  simp only [BitVec.getElem_and,BitVec.getElem_or,BitVec.getElem_zero] at hbit ⊢
  grind

theorem flag_or_right {a b : UInt16} (h : b &&& ofpffSendFlowRem ≠ 0) :
    (a ||| b) &&& ofpffSendFlowRem ≠ 0 := by
  rw [UInt16.or_comm]
  exact flag_or_left h

variable (h : Mirrored t held)

include h

theorem Mirrored.insert (hlinked : t.Linked) (hlinked' : t'.Linked) {flags : UInt16} {now : Int}
    (hinserted : Inserted (t.entryOf f.key) flags now e)
    (hfresh : t.entryOf f.key = none → ∀ key x, t.entryOf key = some x → x.cookie ≠ e.cookie)
    (hentries : ∀ key, t'.entryOf key = if key = f.key then some e else t.entryOf key)
    (hcount : ∀ x, t.entryOf f.key = some x → x.referenceCount.toInt < 2147483647)
    (hcookie : f.cookie = e.cookie) (hflag : f.Flagged → flags &&& ofpffSendFlowRem ≠ 0) :
    Mirrored t' (f :: held) := by
  have hself : t'.entryOf f.key = some e := by rw [hentries,if_pos rfl]
  have hflagged := hinserted.flagged
  have hcounted := hinserted.counted
  constructor
  · intro g hg
    rcases List.mem_cons.mp hg with rfl | hg
    · refine ⟨e,hself,hcookie.symm,fun hflagged' => ?_⟩
      rw [hflagged]
      cases t.entryOf g.key with
      | none => exact hflag hflagged'
      | some x => exact flag_or_right (hflag hflagged')
    · obtain ⟨x,hx,hsame,hkept⟩ := h.mapped g hg
      by_cases hkey : g.key = f.key
      · rw [hkey] at hx
        refine ⟨e,by rw [hkey]; exact hself,(hinserted.kept x hx).trans hsame,fun hflagged' => ?_⟩
        rw [hflagged,hx]
        exact flag_or_left (hkept hflagged')
      · exact ⟨x,by rw [hentries,if_neg hkey]; exact hx,hsame,hkept⟩
  · intro key x hx
    rw [hentries] at hx
    split at hx
    · rw [← Option.some.inj hx,List.countP_cons_of_pos (by simpa using hcookie),hcounted]
      cases hold : t.entryOf f.key with
      | none =>
        have hzero : held.countP (fun g => g.cookie == e.cookie) = 0 := by
          refine List.countP_eq_zero.mpr fun g hg => ?_
          obtain ⟨y,hy,hsame,_⟩ := h.mapped g hg
          have hne := hfresh hold _ y hy
          rw [hsame] at hne
          simpa using hne
        rw [hzero]
        decide
      | some y =>
        have hle := h.counted _ y hold
        have hsum := toInt_increment (entry_sound hlinked hold).referenced (hcount y hold)
        have hsame := hinserted.kept y hold
        rw [hsame,Option.elim_some,hsum]
        omega
    · rename_i hne
      have hapart : f.cookie ≠ x.cookie := by
        intro heq
        have hx' : t'.entryOf key = some x := by rw [hentries,if_neg hne]; exact hx
        have hboth := same_entry hlinked' hself hx' (hcookie.symm.trans heq)
        have hkey := entry_keyed hlinked' hself
        rw [hboth,entry_keyed hlinked' hx'] at hkey
        exact hne hkey
      rw [List.countP_cons_of_neg (by simpa using hapart)]
      exact h.counted key x hx

omit h in
theorem Mirrored.release (h : Mirrored t (f :: held)) (hlinked : t.Linked) (he : t.entryOf f.key = some e)
    (hcookie : e.cookie = f.cookie)
    (hentries : ∀ key, t'.entryOf key = if key = e.key then released e else t.entryOf key) :
    Mirrored t' held := by
  have hsound := entry_sound hlinked he
  have hkey := entry_keyed hlinked he
  have hcount := h.counted _ e he
  rw [List.countP_cons_of_pos (by simpa using hcookie.symm)] at hcount
  constructor
  · intro g hg
    obtain ⟨x,hx,hsame,hkept⟩ := h.mapped g (List.mem_cons_of_mem _ hg)
    by_cases hgkey : g.key = e.key
    · have hxe : x = e := by
        rw [hgkey,hkey,he] at hx
        exact (Option.some.inj hx).symm
      rw [hxe] at hsame hkept
      have hpos : 0 < held.countP (fun g => g.cookie == e.cookie) :=
        List.countP_pos_iff.mpr ⟨g,hg,by simpa using hsame.symm⟩
      have hmore : e.referenceCount > 1 := by
        refine Int32.lt_iff_toInt_lt.mpr ?_
        have hone : (1 : Int32).toInt = 1 := rfl
        omega
      refine ⟨{ e with referenceCount := e.referenceCount - 1 },?_,hsame,hkept⟩
      rw [hentries,if_pos hgkey,released,if_pos hmore]
    · exact ⟨x,by rw [hentries,if_neg hgkey]; exact hx,hsame,hkept⟩
  · intro key x hx
    rw [hentries] at hx
    split at hx
    · obtain ⟨hsame,_,hleft⟩ := released_counts hsound hx
      rw [hsame,hleft]
      omega
    · have hle := h.counted key x hx
      have hmono : held.countP (fun g => g.cookie == x.cookie) ≤
          (f :: held).countP (fun g => g.cookie == x.cookie) := (List.sublist_cons_self f held).countP_le
      omega

end Mirror

namespace SwitchInfo

section Sending

variable {d : SwitchInfo} {message serviceName : Bytes} {now : Int} {c : FlowModCommand}

-- What becomes of the cookie table when a flow_mod is sent, and the cookie that it gets.
theorem globalCookie_spec (hlinked : d.cookieTable.Linked) (hroom : d.cookieTable.Room)
    (hcount : c = .add → ∀ e, d.sentEntry message serviceName = some e →
      e.referenceCount.toInt < 2147483647) :
    ∃ cookie table, d.globalCookie (some c) (be64 message 48) serviceName (be16 message 70) now =
        .ok (some (cookie,table)) ∧ table.Linked ∧
      ((c = .add ∨ (c = .modify ∨ c = .modifyStrict) ∧ d.sentEntry message serviceName = none) →
        ∀ held f, Mirrored d.cookieTable held → f.key = ⟨be64 message 48,copyServiceName serviceName⟩ →
          f.request = message → f.cookie = cookie → Mirrored table (f :: held)) ∧
      (¬ (c = .add ∨ (c = .modify ∨ c = .modifyStrict) ∧ d.sentEntry message serviceName = none) →
        table = d.cookieTable) := by
  by_cases hnew : c = .add ∨ (c = .modify ∨ c = .modifyStrict) ∧ d.sentEntry message serviceName = none
  · have hbelow : ∀ e, d.sentEntry message serviceName = some e → e.referenceCount.toInt < 2147483647 := by
      intro e he
      rcases hnew with hadd | ⟨_,hnone⟩
      · exact hcount hadd e he
      · rw [hnone] at he
        exact absurd he (by simp)
    obtain ⟨t',e,hinsert,hlinked',_,hinserted,hfresh,hentries⟩ := CookieTable.insert_effect hlinked hroom
      (be64 message 48) serviceName (be16 message 70) now hbelow
    refine ⟨e.cookie,t',globalCookie_inserted hlinked hnew hinsert,hlinked',fun _ => ?_,
      fun hold => absurd hnew hold⟩
    intro held f hheld hkey hrequest hcookie
    rw [← hkey] at hinserted hfresh hentries
    refine hheld.insert hlinked hlinked' hinserted hfresh hentries ?_ hcookie ?_
    · rw [hkey]
      exact hbelow
    · intro hflagged
      rwa [Flow.Flagged,hrequest] at hflagged
  · have hadd : c ≠ .add := fun h => hnew (.inl h)
    cases he : d.sentEntry message serviceName with
    | some e =>
      exact ⟨_,_,globalCookie_known hadd he,hlinked,fun h => absurd (by rwa [he]) hnew,fun _ => rfl⟩
    | none =>
      have hdelete : c = .delete ∨ c = .deleteStrict := by
        cases c with
        | add => exact absurd rfl hadd
        | modify => exact absurd (.inr ⟨.inl rfl,he⟩) hnew
        | modifyStrict => exact absurd (.inr ⟨.inr rfl,he⟩) hnew
        | delete => exact .inl rfl
        | deleteStrict => exact .inr rfl
      exact ⟨_,_,globalCookie_reserved hlinked hdelete he,hlinked,
        fun h => absurd (by rwa [he]) hnew,fun _ => rfl⟩

theorem handled_flowMod {fuel : Nat} {d' : SwitchInfo} (hon : d.cookieTranslation = true)
    (htype : hostByte message 1 = OfpType.flowMod.code)
    (h : d.handleOpenflowMessage fuel d.datapathId serviceName message now = .ok d') :
    (d'.cookieTable = d.cookieTable ∧ d'.cookieTranslation = d.cookieTranslation ∧
        d'.outputs = d.outputs) ∨
      72 ≤ message.length ∧ ∃ c, FlowModCommand.ofCode (be16 message 56) = some c ∧
      ∀ cookie table, d.globalCookie (some c) (be64 message 48) serviceName (be16 message 70) now =
          .ok (some (cookie,table)) →
        d' = (sent { d.insertXidEntry (be32 message 4) serviceName with cookieTable := table }
          (forwarded message d.insertedXid cookie (be16 message 70 ||| ofpffSendFlowRem))).info := by
  rw [handleOpenflowMessage] at h
  split at h
  · rename_i hvalid
    have haccepted : Accepts message := ⟨by simp,fuel,hvalid⟩
    obtain ⟨t,ht,hvalidated⟩ := haccepted.type
    rw [htype,OfpType.ofCode_code] at ht
    rw [← Option.some.inj ht] at hvalidated
    have hh : Headed message .flowMod 72 65535 := headed_of_accepted hvalidated
    rw [switchEventRecvFromApplication,if_neg (not_not.mpr rfl)] at h
    cases hcommand : FlowModCommand.ofCode (be16 message 56) with
    | none =>
      rw [ofpmsgSend_undefined hh hon hcommand,ok_bind] at h
      injection h with h
      rw [← h]
      exact .inl ⟨rfl,rfl,rfl⟩
    | some c =>
      refine .inr ⟨hh.lower,c,rfl,fun cookie table hglobal => ?_⟩
      rw [← hcommand] at hglobal
      rw [ofpmsgSend_flowMod hh hon hglobal,ok_bind] at h
      injection h with h
      exact h.symm
  · injection h with h
    rw [← h]
    exact .inl ⟨rfl,rfl,rfl⟩
  · exact absurd h (by simp)

theorem handed_sent (m : Bytes) :
    List.Sublist (((d.sent m).info.outputs.drop d.outputs.length).filterMap Output.toSwitch?) [m] ∧
      (d.sent m).info.cookieTable = d.cookieTable ∧
      (d.sent m).info.cookieTranslation = d.cookieTranslation := by
  rw [sent]
  split
  · refine ⟨?_,rfl,rfl⟩
    simp [emit,Output.toSwitch?]
  · refine ⟨?_,rfl,rfl⟩
    simp

end Sending

section Removal

variable {d : SwitchInfo} {message : Bytes} {e : CookieEntry}

def removalDelivered (d : SwitchInfo) (message : Bytes) (e : CookieEntry) : SwitchInfo :=
  if e.application.flags &&& ofpffSendFlowRem ≠ 0 then
    d.serviceSendToReply e.application.serviceName .message
      (some (overwrite message 48 (toNet64 e.application.cookie)))
  else d

theorem removalDelivered_cookieTable : (d.removalDelivered message e).cookieTable = d.cookieTable := by
  rw [removalDelivered]
  split
  · rfl
  · rfl

theorem removalDelivered_translation :
    (d.removalDelivered message e).cookieTranslation = d.cookieTranslation := by
  rw [removalDelivered]
  split
  · rfl
  · rfl

theorem ofpmsgRecvFlowremoved_known (hlinked : d.cookieTable.Linked) (hon : d.cookieTranslation = true)
    (hmin : 56 ≤ message.length) (he : d.cookieTable.entryOf e.key = some e)
    (hcookie : be64 message 48 = e.cookie) :
    ∃ t', d.ofpmsgRecvFlowremoved message =
        .ok ⟨0,{ d.removalDelivered message e with cookieTable := t' }⟩ ∧ t'.Linked ∧
      ∀ key, t'.entryOf key = if key = e.key then CookieTable.released e else d.cookieTable.entryOf key := by
  obtain ⟨id,hid,hheap⟩ := (CookieTable.lookup_cookie_iff hlinked).mpr ⟨rfl,he⟩
  obtain ⟨t',hdelete,hlinked',hentries⟩ := CookieTable.delete_effect hlinked hheap
  refine ⟨t',?_,hlinked',hentries⟩
  have hreserved : be64 message 48 ≠ reservedCookie := by
    rw [hcookie]
    exact (CookieTable.entry_sound hlinked he).notReserved
  have hfound : d.foundEntry id = .ok e := by
    rw [foundEntry,hheap]
    rfl
  have hdelivered : d.deliverFlowRemoved message e = .ok (d.removalDelivered message e) := by
    rw [deliverFlowRemoved,removalDelivered]
    split
    · rw [store_eq_overwrite (by simp; omega)]
      rfl
    · rfl
  have hdeleted : (d.removalDelivered message e).deleteCookieEntry id =
      .ok { d.removalDelivered message e with cookieTable := t' } := by
    rw [deleteCookieEntry,removalDelivered_cookieTable,hdelete]
    rfl
  rw [ofpmsgRecvFlowremoved,net64_inside (by omega),ok_bind,if_neg hreserved,
    if_neg (by rw [hon]; exact Bool.noConfusion),hcookie,hid]
  simp only [hfound,hdelivered,hdeleted,ok_bind]
  rfl

theorem rejectMessage_internal {error : ValidationError} {outcome : Outcome}
    (h : d.rejectMessage message error = .ok outcome) : Internal 1 d outcome.info := by
  rw [rejectMessage] at h
  obtain ⟨type,_,h⟩ := bind_eq_ok.mp h
  simp only [ofpmsgSendErrorMsg_eq,ok_bind] at h
  injection h with h
  rw [← h]
  exact internal_generated _

theorem ofpmsgRecv_flowRemoved {fuel : Nat} {env : Surroundings} {outcome : Outcome}
    (htype : hostByte message 1 = OfpType.flowRemoved.code)
    (h : d.ofpmsgRecv fuel env message = .ok outcome) :
    Internal 1 d outcome.info ∨ 56 ≤ message.length ∧ d.ofpmsgRecvFlowremoved message = .ok outcome := by
  rw [ofpmsgRecv] at h
  split at h
  · exact .inl (rejectMessage_internal h)
  · exact absurd h (by simp)
  · rename_i hvalid
    have haccepted : Accepts message := ⟨by simp,fuel,hvalid⟩
    have ht : OfpType.ofCode (hostByte message 1) = some .flowRemoved := by rw [htype,OfpType.ofCode_code]
    have hmin : 88 ≤ message.length := (headed_of_type haccepted ht).lower
    rw [byteAt_inside (by omega),ok_bind,ht] at h
    exact .inr ⟨by omega,h⟩

end Removal

end SwitchInfo

namespace FlowSystem

def held (s : FlowSystem) : List Flow := s.sent.filter Flow.counted ++ (s.flows ++ s.removed)

structure Sound (s : FlowSystem) : Prop where
  linked : s.daemon.cookieTable.Linked
  translation : s.daemon.cookieTranslation = true
  mirrored : Mirrored s.daemon.cookieTable s.held

variable (matching : FlowMatching) (s : FlowSystem)

-- The flow_mod is counted where the switch may install a flow: the service name fits, the table has room and the
-- count does not wrap around, and a MODIFY that was sent with a known cookie still selects a flow.
def Referenced : FlowEvent → Prop
  | .send serviceName message _ => copyServiceName serviceName = serviceName ∧ s.daemon.cookieTable.Room ∧
      (FlowModCommand.ofCode (be16 message 56) = some .add → ∀ e,
        s.daemon.sentEntry message serviceName = some e → e.referenceCount.toInt < 2147483647)
  | .apply => ∀ f ∈ s.sent.head?, f.command = some .modify ∨ f.command = some .modifyStrict →
      f.known = true → matching.selected s.flows f ≠ []
  | _ => True

variable {matching s} {s' : FlowSystem} {fuel : Nat}

theorem Sound.send (h : s.Sound) {serviceName message : Bytes} {now : Int}
    (href : s.Referenced matching (.send serviceName message now))
    (htype : hostByte message 1 = OfpType.flowMod.code)
    (hsend : s.send fuel serviceName message now = .ok s') : s'.Sound := by
  obtain ⟨hcopy,hroom,hcount⟩ := href
  simp only [FlowSystem.send] at hsend
  obtain ⟨d',hd',hs'⟩ := bind_eq_ok.mp hsend
  injection hs' with hs'
  rcases SwitchInfo.handled_flowMod h.translation htype hd' with
    ⟨htable,htranslation,houtputs⟩ | ⟨hmin,c,hcommand,hhandled⟩
  · have hheld : s'.held = s.held := by
      rw [← hs',held,houtputs]
      simp [held]
    refine ⟨by rw [← hs',htable]; exact h.linked,by rw [← hs',htranslation]; exact h.translation,?_⟩
    rw [hheld,← hs',htable]
    exact h.mirrored
  · obtain ⟨cookie,table,hglobal,hlinked,hnew,hold⟩ := @SwitchInfo.globalCookie_spec _ _ _ now c
      h.linked hroom (fun hadd => hcount (by rw [hcommand,hadd]))
    have hsent := hhandled cookie table hglobal
    generalize hm : forwarded message s.daemon.insertedXid cookie
      (be16 message 70 ||| ofpffSendFlowRem) = m at hsent
    obtain ⟨hkept,htable,htranslation⟩ := SwitchInfo.handed_sent
      (d := { s.daemon.insertXidEntry (be32 message 4) serviceName with cookieTable := table }) m
    rw [← hsent] at hkept htable htranslation
    generalize hknown : (s.daemon.cookieTable.lookupCookieEntryByApplication (be64 message 48)
      serviceName).isSome = known at hs'
    generalize hf : (⟨serviceName,message,m,known⟩ : Flow) = f
    have hfkey : f.key = ⟨be64 message 48,copyServiceName serviceName⟩ := by
      rw [hcopy,← hf]
      rfl
    have hfcookie : f.cookie = cookie := by
      rw [← hf,Flow.cookie,← hm]
      exact cookie_forwarded _ _ _ hmin
    have hfcommand : f.command = some c := by
      rw [← hf,Flow.command,← hm,command_forwarded _ _ _ hmin,hcommand]
    have hfiltered := (hkept.map fun m => (⟨serviceName,message,m,known⟩ : Flow)).filter Flow.counted
    rw [List.map_singleton,hf] at hfiltered
    have hheld : s'.held.Subperm ([f].filter Flow.counted ++ s.held) := by
      have hfront : List.Perm (s.sent.filter Flow.counted ++ [f].filter Flow.counted ++
          (s.flows ++ s.removed)) ([f].filter Flow.counted ++ s.held) := by
        rw [FlowSystem.held,← List.append_assoc ([f].filter Flow.counted)]
        exact List.perm_append_comm.append_right _
      rw [← hs',FlowSystem.held,List.filter_append]
      exact (((List.Sublist.refl _).append hfiltered).append (List.Sublist.refl _)).subperm.trans
        hfront.subperm
    refine ⟨by rw [← hs',htable]; exact hlinked,by rw [← hs',htranslation]; exact h.translation,?_⟩
    rw [← hs',htable]
    by_cases hinserted : c = .add ∨ (c = .modify ∨ c = .modifyStrict) ∧
        s.daemon.sentEntry message serviceName = none
    · have hmirrored := hnew hinserted s.held f h.mirrored hfkey (by rw [← hf]) hfcookie
      rw [hs']
      exact hmirrored.of_subperm (hheld.trans ((List.filter_sublist.append (List.Sublist.refl _)).subperm))
    · have huncounted : f.counted = false := by
        have hknown' : s.daemon.sentEntry message serviceName ≠ none → f.known = true := by
          intro hne
          rw [← hf,← hknown,← Option.ne_none_iff_isSome]
          intro hnone
          exact hne ((CookieTable.lookup_application_none h.linked).mp hnone)
        rw [Flow.counted,hfcommand]
        cases c with
        | add => exact absurd (.inl rfl) hinserted
        | modify => simp [hknown' fun hnone => hinserted (.inr ⟨.inl rfl,hnone⟩)]
        | modifyStrict => simp [hknown' fun hnone => hinserted (.inr ⟨.inr rfl,hnone⟩)]
        | delete => rfl
        | deleteStrict => rfl
      rw [List.filter_cons_of_neg (by rw [huncounted]; exact Bool.noConfusion)] at hheld
      rw [hold hinserted,hs']
      exact h.mirrored.of_subperm hheld

theorem filtered_perm (p : Flow → Bool) (fs : List Flow) :
    List.Perm (fs.filter (fun g => !p g) ++ fs.filter p) fs :=
  List.perm_append_comm.trans (List.filter_append_perm p fs)

theorem held_install {f : Flow} {sent fs : List Flow} (hsent : s.sent = f :: sent)
    (hcounted : f.counted = true) (hfs : List.Sublist fs s.flows) :
    List.Subperm (sent.filter Flow.counted ++ (f :: fs ++ s.removed)) s.held := by
  have hfront : List.Perm (sent.filter Flow.counted ++ (f :: fs ++ s.removed))
      (f :: sent.filter Flow.counted ++ (fs ++ s.removed)) := List.perm_middle
  rw [held,hsent,List.filter_cons_of_pos hcounted]
  exact hfront.subperm.trans ((List.Sublist.refl _).append (hfs.append (List.Sublist.refl _))).subperm

theorem held_skip {f : Flow} {sent fs removed : List Flow} (hsent : s.sent = f :: sent)
    (hfs : List.Subperm (fs ++ removed) s.flows) :
    List.Subperm (sent.filter Flow.counted ++ (fs ++ (s.removed ++ removed))) s.held := by
  have hfront : List.Perm (fs ++ (s.removed ++ removed)) (fs ++ removed ++ s.removed) := by
    rw [List.append_assoc]
    exact List.perm_append_comm.append_left _
  rw [held,hsent]
  refine List.Subperm.append (((List.sublist_cons_self f sent).filter _).subperm) ?_
  exact hfront.subperm.trans (hfs.append (List.Subperm.refl _))

theorem held_apply (href : s.Referenced matching .apply) : (s.apply matching).held.Subperm s.held := by
  rw [FlowSystem.apply]
  cases hsent : s.sent with
  | nil => exact List.Subperm.refl _
  | cons f sent =>
    have hnone : List.Subperm (sent.filter Flow.counted ++ (s.flows ++ (s.removed ++ []))) s.held :=
      held_skip hsent (by rw [List.append_nil])
    have hmodify : (f.command = some .modify ∨ f.command = some .modifyStrict) →
        matching.selected s.flows f = [] → f.counted = true := by
      intro hcommand hselected
      have hunknown : f.known ≠ true := fun hknown =>
        href f (by rw [hsent]; rfl) hcommand hknown hselected
      rcases hcommand with hcommand | hcommand
      · simp [Flow.counted,hcommand,hunknown]
      · simp [Flow.counted,hcommand,hunknown]
    have hinstall : f.counted = true →
        List.Subperm (sent.filter Flow.counted ++ (f :: s.flows ++ (s.removed ++ []))) s.held := by
      intro hcounted
      rw [List.append_nil]
      exact held_install hsent hcounted (List.Sublist.refl _)
    have hremove : List.Subperm ((s.flows.filter fun g => !matching.selects f.message g.message) ++
        (matching.selected s.flows f).filter Flow.reported) s.flows :=
      ((List.Sublist.refl _).append List.filter_sublist).subperm.trans (filtered_perm _ _).subperm
    simp only [held,FlowMatching.apply]
    cases hcommand : f.command with
    | none => exact hnone
    | some c =>
      cases c with
      | add =>
        rw [List.append_nil]
        exact held_install hsent (by rw [Flow.counted,hcommand]) List.filter_sublist
      | modify =>
        simp only
        split
        · rename_i hselected
          exact hinstall (hmodify (.inl hcommand) hselected)
        · exact hnone
      | modifyStrict =>
        simp only
        split
        · rename_i hselected
          exact hinstall (hmodify (.inr hcommand) hselected)
        · exact hnone
      | delete => exact held_skip hsent hremove
      | deleteStrict => exact held_skip hsent hremove

theorem held_expire (index : Nat) : (s.expire index).held.Subperm s.held := by
  simp only [held,expire]
  cases hf : s.flows[index]? with
  | none =>
    have hle : s.flows.length ≤ index := List.getElem?_eq_none_iff.mp hf
    rw [List.eraseIdx_of_length_le hle]
    simpa using List.Subperm.refl _
  | some f =>
    obtain ⟨hlt,hf⟩ := List.getElem?_eq_some_iff.mp hf
    have hfront : List.Perm (s.flows.eraseIdx index ++ (s.removed ++ [f])) (s.flows ++ s.removed) := by
      have hback : List.Perm (s.flows[index] :: s.flows.eraseIdx index) s.flows :=
        List.getElem_cons_eraseIdx_perm hlt
      rw [hf] at hback
      rw [← List.append_assoc]
      exact (List.perm_append_singleton f _).trans (hback.append_right _)
    refine List.Subperm.append (List.Subperm.refl _) (List.Subperm.trans ?_ hfront.subperm)
    exact ((List.Sublist.refl _).append ((List.Sublist.refl _).append List.filter_sublist)).subperm

theorem Sound.of_same (h : s.Sound) (hdaemon : s'.daemon = s.daemon) (hheld : s'.held.Subperm s.held) :
    s'.Sound := by
  refine ⟨?_,?_,?_⟩
  · rw [hdaemon]
    exact h.linked
  · rw [hdaemon]
    exact h.translation
  · rw [hdaemon]
    exact h.mirrored.of_subperm hheld

theorem held_deliver {f : Flow} {removed : List Flow} (hremoved : s.removed = f :: removed) :
    List.Perm s.held (f :: (s.sent.filter Flow.counted ++ (s.flows ++ removed))) := by
  rw [held,hremoved,← List.append_assoc,← List.append_assoc]
  exact List.perm_middle

theorem Sound.deliver (h : s.Sound) {message : Bytes} {env : Surroundings}
    (hdeliver : s.deliver fuel message env = .ok s') : s'.Sound := by
  rw [FlowSystem.deliver] at hdeliver
  split at hdeliver
  · injection hdeliver with hdeliver
    rw [← hdeliver]
    exact h
  · rename_i f removed hremoved
    split at hdeliver
    · rename_i hmessage
      obtain ⟨outcome,hrecv,hs'⟩ := bind_eq_ok.mp hdeliver
      injection hs' with hs'
      have hperm := held_deliver hremoved
      have hheld : s'.held = s.sent.filter Flow.counted ++ (s.flows ++ removed) := by rw [← hs',held]
      rw [← hheld] at hperm
      have hmirrored := h.mirrored.of_subperm hperm.symm.subperm
      rcases SwitchInfo.ofpmsgRecv_flowRemoved hmessage.1 hrecv with hsame | ⟨hmin,hknown⟩
      · refine ⟨?_,?_,?_⟩
        · rw [← hs',hsame.cookieTable]
          exact h.linked
        · rw [← hs',hsame.translation]
          exact h.translation
        · rw [hheld,← hs',hsame.cookieTable,← hheld]
          exact hmirrored.of_subperm (List.sublist_cons_self _ _).subperm
      · obtain ⟨e,he,hcookie,_⟩ := hmirrored.mapped f List.mem_cons_self
        have hkey := CookieTable.entry_keyed h.linked he
        obtain ⟨t',hrecv',hlinked',hentries⟩ := SwitchInfo.ofpmsgRecvFlowremoved_known h.linked
          h.translation hmin (by rw [hkey]; exact he) (hmessage.2.trans hcookie.symm)
        rw [hrecv'] at hknown
        injection hknown with hknown
        refine ⟨?_,?_,?_⟩
        · rw [← hs',← hknown]
          exact hlinked'
        · rw [← hs',← hknown]
          exact SwitchInfo.removalDelivered_translation.trans h.translation
        · rw [← hs',← hknown] at hmirrored ⊢
          exact hmirrored.release h.linked he hcookie hentries
    · injection hdeliver with hdeliver
      rw [← hdeliver]
      exact h

theorem Sound.step (h : s.Sound) {event : FlowEvent} (href : s.Referenced matching event)
    (hstep : s.step matching fuel event = .ok s') : s'.Sound := by
  cases event with
  | send serviceName message now =>
    rw [FlowSystem.step] at hstep
    split at hstep
    · rename_i htype
      exact h.send href htype hstep
    · injection hstep with hstep
      rw [← hstep]
      exact h
  | apply =>
    injection hstep with hstep
    rw [← hstep]
    refine h.of_same ?_ (held_apply href)
    rw [FlowSystem.apply]
    split
    · rfl
    · rfl
  | expire index =>
    injection hstep with hstep
    rw [← hstep]
    exact h.of_same rfl (held_expire index)
  | deliver message env => exact h.deliver hstep

variable (matching fuel) in
def ReferencedRun : FlowSystem → List FlowEvent → Prop
  | _, [] => True
  | s, event :: events => s.Referenced matching event ∧
      ∀ s₁, s.step matching fuel event = .ok s₁ → ReferencedRun s₁ events

theorem Sound.run (h : s.Sound) {events : List FlowEvent} (href : s.ReferencedRun matching fuel events)
    (hrun : s.run matching fuel events = .ok s') : s'.Sound := by
  induction events generalizing s with
  | nil =>
    injection hrun with hrun
    rw [← hrun]
    exact h
  | cons event events ih =>
    obtain ⟨s₁,hstep,hrest⟩ := bind_eq_ok.mp hrun
    exact ih (h.step href.1 hstep) (href.2 s₁ hstep) hrest

-- The daemon as it starts, and a switch without flows.
structure Idle (s : FlowSystem) : Prop where
  cookieTable : s.daemon.cookieTable = initCookieTable
  translation : s.daemon.cookieTranslation = true
  sent : s.sent = []
  flows : s.flows = []
  removed : s.removed = []

theorem Idle.sound (h : s.Idle) : s.Sound := by
  have hheld : s.held = [] := by rw [held,h.sent,h.flows,h.removed]; rfl
  refine ⟨?_,h.translation,?_⟩
  · rw [h.cookieTable]
    exact CookieTable.init_linked
  · rw [hheld]
    refine ⟨by simp,fun key e he => ?_⟩
    have hsound := CookieTable.entry_sound (h.cookieTable ▸ CookieTable.init_linked) he
    have hpos := hsound.referenced
    simp only [List.countP_nil]
    omega

variable (s) in
def Mapped (f : Flow) : Prop :=
  ∃ id e, s.daemon.cookieTable.lookupCookieEntryByCookie f.cookie = some id ∧
    s.daemon.cookieTable.heap id = some e ∧ e.key = ⟨be64 f.request 48,f.serviceName⟩ ∧
    e.application.flags &&& ofpffSendFlowRem ≠ 0

-- A flow_removed with the flow's cookie goes to its service, with the cookie that the service gave it.
variable (s) in
def Delivered (f : Flow) : Prop :=
  ∀ message env, Accepts message → hostByte message 1 = OfpType.flowRemoved.code →
    be64 message 48 = f.cookie → ∃ info, Yields (fun n => s.daemon.ofpmsgRecv n env message) (.ok ⟨0,info⟩) ∧
      info.outputs = s.daemon.outputs ++ [.toService f.serviceName .message s.daemon.datapathId
        (some (overwrite message 48 (toNet64 (be64 f.request 48))))]

theorem Sound.delivered (h : s.Sound) {f : Flow} (hf : f ∈ s.held) (hflagged : f.Flagged) :
    s.Mapped f ∧ s.Delivered f := by
  obtain ⟨e,he,hcookie,hflags⟩ := h.mirrored.mapped f hf
  have hkey := CookieTable.entry_keyed h.linked he
  have hself : s.daemon.cookieTable.entryOf e.key = some e := by rw [hkey]; exact he
  constructor
  · obtain ⟨id,hid,hheap⟩ := (CookieTable.lookup_cookie_iff h.linked).mpr ⟨hcookie,hself⟩
    exact ⟨id,e,hid,hheap,hkey,hflags hflagged⟩
  · intro message env haccepted htype hsame
    have ht : OfpType.ofCode (hostByte message 1) = some .flowRemoved := by rw [htype,OfpType.ofCode_code]
    have hmin : 88 ≤ message.length := (headed_of_type haccepted ht).lower
    obtain ⟨t',hrecv,_⟩ := SwitchInfo.ofpmsgRecvFlowremoved_known h.linked h.translation (by omega) hself
      (hsame.trans hcookie.symm)
    refine ⟨_,(SwitchInfo.ofpmsgRecv_accepted haccepted ht env _).mpr ⟨by simp,0,hrecv⟩,?_⟩
    rw [SwitchInfo.removalDelivered,if_pos (hflags hflagged)]
    have hcookie' : e.application.cookie = be64 f.request 48 := congrArg ApplicationKey.cookie hkey
    have hservice : e.application.serviceName = f.serviceName := congrArg ApplicationKey.serviceName hkey
    rw [hcookie',hservice]
    rfl

end FlowSystem

end Trema.SwitchManager
