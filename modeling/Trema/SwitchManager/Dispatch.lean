import Trema.SwitchManager.CookieRuns
import Trema.SwitchManager.Handlers

namespace Trema.SwitchManager

open Library
open OpenFlow

section Translation

variable (lookup : UInt64 → Option UInt64)

def translated (message : Bytes) (p : Nat) : Bytes :=
  match lookup (be64 message (p + 64)) with
  | some cookie => overwrite message (p + 64) (toNet64 cookie)
  | none => message

-- The flow entries from the offset on, each with its cookie inside the message and a length that leads on. A
-- cookie that is replaced may stand where a later entry has its length.
inductive Translatable : Bytes → Nat → Prop
  | finished {message : Bytes} {p : Nat} : message.length ≤ p → Translatable message p
  | entry {message : Bytes} {p : Nat} : p + 72 ≤ message.length → 0 < (be16 message p).toNat →
      Translatable (translated lookup message p) (p + (be16 message p).toNat) → Translatable message p

variable {message : Bytes} {p : Nat}

theorem length_translated (h : p + 72 ≤ message.length) :
    (translated lookup message p).length = message.length := by
  rw [translated]
  split
  · exact length_overwrite (by simp; omega)
  · rfl

theorem be16_translated (h : p + 72 ≤ message.length) :
    be16 (translated lookup message p) p = be16 message p := by
  rw [translated]
  split
  · rw [be16,slice_overwrite_before (by omega) (by simp; omega),be16]
  · rfl

variable {lookup}

def rewriting (message : Bytes) (p : Nat) : CookieRewriting := ⟨(message.length : Int) - p,p,message⟩

theorem rewriteCookie_eq (h : p + 72 ≤ message.length) : rewriteCookie lookup (rewriting message p) =
    .ok (rewriting (translated lookup message p) (p + (be16 message p).toNat)) := by
  have hlen := length_translated lookup h
  have hbe := be16_translated lookup h
  have hlength : net16 (translated lookup message p) p = (.ok (be16 message p) : Exec UInt16) := by
    rw [net16_inside (by omega),hbe]
  have hnext : rewriting (translated lookup message p) (p + (be16 message p).toNat) =
      ⟨(message.length : Int) - p - (be16 message p).toNat,p + (be16 message p).toNat,
        translated lookup message p⟩ := by
    rw [rewriting,hlen]
    congr 1
    omega
  rw [hnext]
  simp only [rewriteCookie,rewriting,net64_inside (show p + 64 + 8 ≤ message.length by omega),ok_bind]
  rw [translated] at hlength ⊢
  cases hl : lookup (be64 message (p + 64)) with
  | none =>
    rw [hl] at hlength
    simp only [pure,Except.pure,ok_bind,hlength]
  | some cookie =>
    rw [hl] at hlength
    simp only [store_eq_overwrite (show p + 64 + (toNet64 cookie).length ≤ message.length by simp; omega),
      ok_bind,hlength]
    rfl

theorem rewriteCookie_bounds {s : CookieRewriting}
    (h : rewriteCookie lookup (rewriting message p) = .ok s) : p + 72 ≤ message.length := by
  by_contra hout
  have herr : (net64 message (p + 64) : Exec UInt64) = .error .outOfBounds := by
    rw [net64,within,if_neg (by omega)]
  rw [rewriteCookie,rewriting,herr] at h
  exact absurd h (by simp)

theorem rewriting_final {message : Bytes} {p : Nat} :
    (decide (0 < (rewriting message p).bodyLength) = false) ↔ message.length ≤ p := by
  simp [rewriting]

theorem slice_translated (h : p + 72 ≤ message.length) {off n : Nat} (hoff : off + n ≤ p + 64) :
    slice (translated lookup message p) off n = slice message off n := by
  rw [translated]
  split
  · exact slice_overwrite_before hoff (by simp; omega)
  · rfl

theorem reach_of_translatable (h : Translatable lookup message p) :
    ∃ q m, Reach (fun s => decide (0 < s.bodyLength)) (fun _ => rewriteCookie lookup)
      (rewriting message p) (rewriting m q) ∧ m.length ≤ q ∧ m.length = message.length ∧
        ∀ off n, off + n ≤ p + 64 → slice m off n = slice message off n := by
  induction h with
  | @finished message p hend => exact ⟨p,message,.refl,hend,rfl,fun _ _ _ => rfl⟩
  | @entry message p hin hpos _ ih =>
    obtain ⟨q,m,hreach,hend,hlen,hkeep⟩ := ih
    refine ⟨q,m,.head ⟨decide_eq_true ?_,by simp,0,rewriteCookie_eq hin⟩ hreach,hend,
      hlen.trans (length_translated lookup hin),fun off n hoff => ?_⟩
    · simp only [rewriting]
      omega
    · rw [hkeep off n (by omega),slice_translated hin hoff]

theorem translatable_of_reach {s t : CookieRewriting}
    (h : Reach (fun s => decide (0 < s.bodyLength)) (fun _ => rewriteCookie lookup) s t)
    (hend : decide (0 < t.bodyLength) = false) :
    ∀ m q, s = rewriting m q → Translatable lookup m q := by
  induction h using Relation.ReflTransGen.head_induction_on with
  | refl =>
    rintro m q rfl
    exact .finished (rewriting_final.mp hend)
  | @head a b hab _ ih =>
    rintro m q rfl
    obtain ⟨_,_,_,hab⟩ := hab
    have hstep : rewriteCookie lookup (rewriting m q) = .ok b := hab
    have hin := rewriteCookie_bounds hstep
    rw [rewriteCookie_eq hin] at hstep
    injection hstep with hstep
    have hrest := ih _ _ hstep.symm
    refine .entry hin (Nat.pos_of_ne_zero fun hzero => ?_) hrest
    -- An entry of length zero is come to again and again.
    rw [hzero,Nat.add_zero] at hrest
    have hlen := length_translated lookup hin
    cases hrest with
    | finished hout => omega
    | entry _ hpos _ =>
      rw [be16_translated lookup hin,hzero] at hpos
      exact absurd hpos (Nat.lt_irrefl 0)

theorem translatable_of_yields {s : CookieRewriting} (h : Yields (fun n => whileLoop
    (fun s => decide (0 < s.bodyLength)) (rewriteCookie lookup) n (rewriting message p)) (.ok s)) :
    Translatable lookup message p := by
  obtain ⟨hreach,hend⟩ := (whileLoop_yields_ok (fun s => settled_const (rewriteCookie lookup s)) _ _).mp h
  exact translatable_of_reach hreach hend message p rfl

theorem yields_of_translatable (h : Translatable lookup message p) :
    ∃ q m, Yields (fun n => whileLoop (fun s => decide (0 < s.bodyLength)) (rewriteCookie lookup) n
      (rewriting message p)) (.ok (rewriting m q)) ∧ m.length = message.length ∧
        ∀ off n, off + n ≤ p + 64 → slice m off n = slice message off n := by
  obtain ⟨q,m,hreach,hend,hlen,hkeep⟩ := reach_of_translatable h
  exact ⟨q,m,(whileLoop_yields_ok (fun s => settled_const (rewriteCookie lookup s)) _ _).mpr
    ⟨hreach,rewriting_final.mpr hend⟩,hlen,hkeep⟩

-- What the cookies of a statistics reply call for.
def FitsTranslation (lookup : UInt64 → Option UInt64) (translation : Bool) (message : Bytes) : Prop :=
  be16 message 8 = StatsType.flow.code → translation = true → Translatable lookup message 12

theorem translateStatsreply_eq (hh : Headed message .statsReply 12 65535) (translation : Bool) (n : Nat) :
    OpenFlow.ofpmsgRecvStatsreply lookup translation n message =
      if be16 message 8 = StatsType.flow.code ∧ translation = true then do
        let last ← whileLoop (fun s => decide (0 < s.bodyLength)) (rewriteCookie lookup) n
          (rewriting message 12)
        pure last.message
      else pure message := by
  have hmin := hh.lower
  rw [OpenFlow.ofpmsgRecvStatsreply,net16_inside (by omega),ok_bind,net16_inside (by omega),ok_bind,
    hh.length]
  rfl

theorem fits_of_translated (hh : Headed message .statsReply 12 65535) {translation : Bool} {m : Bytes}
    (h : Yields (fun n => OpenFlow.ofpmsgRecvStatsreply lookup translation n message) (.ok m)) :
    FitsTranslation lookup translation message := by
  intro htype htranslation
  obtain ⟨_,n,hn⟩ := h
  simp only at hn
  rw [translateStatsreply_eq hh,if_pos ⟨htype,htranslation⟩,bind_eq_ok] at hn
  obtain ⟨s,hs,_⟩ := hn
  exact translatable_of_yields ⟨by simp,n,hs⟩

theorem translated_of_fits (hh : Headed message .statsReply 12 65535) {translation : Bool}
    (h : FitsTranslation lookup translation message) :
    ∃ m, Yields (fun n => OpenFlow.ofpmsgRecvStatsreply lookup translation n message) (.ok m) ∧
      m.length = message.length ∧ ∀ off n, off + n ≤ 12 → slice m off n = slice message off n := by
  simp only [translateStatsreply_eq hh]
  by_cases hc : be16 message 8 = StatsType.flow.code ∧ translation = true
  · simp only [if_pos hc]
    obtain ⟨q,m,⟨_,n,hn⟩,hlen,hkeep⟩ := yields_of_translatable (h hc.1 hc.2)
    refine ⟨m,⟨by simp,n,?_⟩,hlen,fun off k hoff => hkeep off k (by omega)⟩
    simp only [hn,ok_bind]
    rfl
  · simp only [if_neg hc]
    exact ⟨message,⟨by simp,0,rfl⟩,rfl,fun _ _ _ => rfl⟩

end Translation

namespace SwitchInfo

variable {d : SwitchInfo} {message : Bytes}

section Errors

theorem deleteCookieEntry_ok (hd : d.cookieTable.Linked) {id : EntryId} {e : CookieEntry}
    (he : d.cookieTable.heap id = some e) :
    ∃ d', d.deleteCookieEntry id = .ok d' ∧ d'.cookieTable.Linked := by
  obtain ⟨t,ht,hlinked,_⟩ := CookieTable.delete_spec hd he
  rw [deleteCookieEntry,ht]
  exact ⟨_,rfl,hlinked⟩

theorem foundEntry_ok (hd : d.cookieTable.Linked) {cookie : UInt64} {id : EntryId}
    (h : d.cookieTable.lookupCookieEntryByCookie cookie = some id) :
    ∃ e, d.foundEntry id = .ok e ∧ d.cookieTable.heap id = some e ∧ e.cookie = cookie := by
  obtain ⟨e,he,hcookie⟩ := (hd.global cookie id).mp h
  refine ⟨e,?_,he,hcookie⟩
  rw [foundEntry,he]
  rfl

-- A rewriting of the quoted flow_mod that leaves the error's own header and the command alone.
structure Requoted (m message : Bytes) : Prop where
  length : m.length = message.length
  xid : be32 m 4 = be32 message 4
  command : be16 m 68 = be16 message 68

theorem Requoted.self (message : Bytes) : Requoted message message := ⟨rfl,rfl,rfl⟩

theorem Requoted.trans {l m n : Bytes} (h : Requoted l m) (h' : Requoted m n) : Requoted l n :=
  ⟨h.length.trans h'.length,h.xid.trans h'.xid,h.command.trans h'.command⟩

theorem requoted_overwrite {off : Nat} {bs : Bytes} (h : off + bs.length ≤ message.length)
    (hheader : 8 ≤ off) (hcommand : off + bs.length ≤ 68 ∨ 70 ≤ off) :
    Requoted (overwrite message off bs) message :=
  ⟨length_overwrite h,be32_overwrite_apart h (.inl hheader),be16_overwrite_apart h hcommand.symm⟩

variable (d) in
theorem restoreXid_ok (h : 12 + 8 ≤ message.length) :
    ∃ m, d.restoreXid message = .ok m ∧ Requoted m message ∧ be64 m 60 = be64 message 60 := by
  rw [restoreXid,quotedFlowMod,net32_inside (by omega),ok_bind]
  cases d.xidTable.lookupXidEntry (be32 message (12 + 4)) with
  | none => exact ⟨_,rfl,.self _,rfl⟩
  | some entry =>
    have hfit : 12 + 4 + (toNet32 entry.originalXid).length ≤ message.length := by
      simp
      omega
    exact ⟨_,store_eq_overwrite hfit,requoted_overwrite hfit (by omega) (.inl (by simp)),
      be64_overwrite_apart hfit (.inr (by simp))⟩

theorem restoreCookie_ok {length : Nat} (entry : CookieEntry) (hlen : 56 ≤ length)
    (h : length + 12 ≤ message.length) :
    ∃ m, restoreCookie message length entry = .ok m ∧ Requoted m message := by
  have hcookie : 12 + 48 + (toNet64 entry.application.cookie).length ≤ message.length := by
    simp
    omega
  have hover := length_overwrite hcookie
  have hquoted : Requoted (overwrite message (12 + 48) (toNet64 entry.application.cookie)) message :=
    requoted_overwrite hcookie (by omega) (.inl (by simp))
  rw [restoreCookie,writeCookie,quotedFlowMod,store_eq_overwrite hcookie,ok_bind]
  split
  · have hflags : 12 + 70 + (toNet16 entry.application.flags).length ≤
        (overwrite message (12 + 48) (toNet64 entry.application.cookie)).length := by
      simp only [length_toNet16]
      omega
    exact ⟨_,store_eq_overwrite hflags,(requoted_overwrite hflags (by omega) (.inr (by omega))).trans hquoted⟩
  · exact ⟨_,rfl,hquoted⟩

theorem withdrawCookie_ok (hd : d.cookieTable.Linked) (found : Option EntryId)
    (hfound : ∀ id, found = some id → ∃ e, d.cookieTable.heap id = some e) {length : Nat}
    (h : length + 12 ≤ message.length) : d.withdrawCookie message length found =
      .ok (if 58 ≤ length ∧ FlowModCommand.ofCode (be16 message 68) = some .add then
        { d with cookieTable := (d.cookieTable.deleteFound found).getD d.cookieTable } else d) := by
  unfold withdrawCookie
  split
  · rename_i hlong
    rw [quotedFlowMod,net16_inside (by omega),ok_bind]
    split
    · rename_i hadd
      rw [if_pos ⟨hlong,hadd⟩]
      cases found with
      | none => rfl
      | some id =>
        obtain ⟨e,he⟩ := hfound id rfl
        obtain ⟨t,ht,_⟩ := CookieTable.delete_spec hd he
        simp only [deleteCookieEntry,CookieTable.deleteFound,ht]
        rfl
    · rename_i hadd
      rw [if_neg (fun h => hadd h.2)]
      rfl
  · rename_i hlong
    rw [if_neg (fun h => hlong h.1)]
    rfl

theorem restoreFlowMod_ok (hd : d.cookieTable.Linked) {length : Nat} (cookie : UInt64)
    (hlen : 56 ≤ length) (h : length + 12 ≤ message.length) :
    ∃ m, Requoted m message ∧ d.restoreFlowMod message length cookie =
      .ok (m,if 58 ≤ length ∧ FlowModCommand.ofCode (be16 message 68) = some .add then
        { d with
          cookieTable := (d.cookieTable.deleteFound
            (d.cookieTable.lookupCookieEntryByCookie cookie)).getD d.cookieTable }
        else d) := by
  rw [restoreFlowMod]
  cases hfound : d.cookieTable.lookupCookieEntryByCookie cookie with
  | none =>
    refine ⟨message,.self _,?_⟩
    simp only [withdrawCookie_ok hd none (by simp) h,pure_eq_ok,ok_bind]
  | some id =>
    obtain ⟨e,hentry,he,_⟩ := foundEntry_ok hd hfound
    obtain ⟨m,hm,hquoted⟩ := restoreCookie_ok e hlen h
    have hlen' := hquoted.length
    refine ⟨m,hquoted,?_⟩
    simp only [hentry,hm,ok_bind,pure_eq_ok,withdrawCookie_ok hd (some id)
      (fun j hj => ⟨e,by rw [← Option.some.inj hj]; exact he⟩) (show length + 12 ≤ m.length by omega),
      hquoted.command]

-- The table once the failure of the flow_mod that the error quotes has been taken into account.
variable (d message) in
def failedTable : CookieTable :=
  if be16 message 8 = ofpetFlowModFailed ∧ d.cookieTranslation = true ∧ 70 ≤ message.length ∧
      FlowModCommand.ofCode (be16 message 68) = some .add then
    (d.cookieTable.deleteFound (d.cookieTable.lookupCookieEntryByCookie (be64 message 60))).getD d.cookieTable
  else d.cookieTable

-- An error that goes no further: it quotes a flow_mod with the cookie that stands for none.
variable (message) in
def Unnamed : Prop :=
  be16 message 8 = ofpetFlowModFailed ∧ 68 ≤ message.length ∧ be64 message 60 = reservedCookie

instance : Decidable (Unnamed message) := inferInstanceAs (Decidable (_ ∧ _))

theorem recvFlowModFailed_ok (hd : d.cookieTable.Linked) (h : 12 ≤ message.length)
    (htype : be16 message 8 = ofpetFlowModFailed) : ∃ m, Requoted m message ∧
      d.recvFlowModFailed message (message.length - 12) =
        .ok (if Unnamed message then none else some (m,{ d with cookieTable := d.failedTable message })) := by
  rw [recvFlowModFailed]
  split
  · rename_i hshort
    have hnamed : ¬ Unnamed message := fun hun => by
      have := hun.2.1
      omega
    have htable : d.failedTable message = d.cookieTable := if_neg fun hall => by
      have := hall.2.2.1
      omega
    refine ⟨message,.self _,?_⟩
    rw [if_neg hnamed,htable]
    rfl
  · rename_i hlen
    obtain ⟨m,hm,hquoted,hcookie⟩ := d.restoreXid_ok (show 12 + 8 ≤ message.length by omega)
    have hlen' := hquoted.length
    rw [hm,ok_bind,quotedFlowMod,net64_inside (by omega),ok_bind,hcookie]
    split
    · rename_i hreserved
      refine ⟨m,hquoted,?_⟩
      rw [if_pos ⟨htype,by omega,hreserved⟩]
      rfl
    · rename_i hreserved
      have hnamed : ¬ Unnamed message := fun hun => hreserved hun.2.2
      split
      · rename_i hon
        obtain ⟨m',hquoted',hr⟩ := restoreFlowMod_ok hd (be64 message 60) (Nat.le_of_not_lt hlen)
          (show message.length - 12 + 12 ≤ m.length by omega)
        have htable : d.failedTable message =
            if 58 ≤ message.length - 12 ∧ FlowModCommand.ofCode (be16 message 68) = some .add then
              (d.cookieTable.deleteFound
                (d.cookieTable.lookupCookieEntryByCookie (be64 message 60))).getD d.cookieTable
            else d.cookieTable := by
          refine if_congr ⟨?_,?_⟩ rfl rfl
          · rintro ⟨_,_,hlong,hadd⟩
            exact ⟨by omega,hadd⟩
          · rintro ⟨hlong,hadd⟩
            exact ⟨htype,hon,by omega,hadd⟩
        refine ⟨m',hquoted'.trans hquoted,?_⟩
        simp only [hr,ok_bind,pure_eq_ok,hquoted.command,htable]
        split
        · rfl
        · rfl
      · rename_i hoff
        have htable : d.failedTable message = d.cookieTable := if_neg fun hall => hoff hall.2.1
        refine ⟨m,hquoted,?_⟩
        rw [htable]
        rfl

theorem ofpmsgRecvError_eq (hd : d.cookieTable.Linked) (hh : Headed message .error 12 65535) :
    ∃ m, Requoted m message ∧ d.ofpmsgRecvError message = .ok ⟨d.switchEventRecvError,
      if d.state = .completed ∧ ¬ Unnamed message then
        answered { d with cookieTable := d.failedTable message } m else d⟩ := by
  have hmin := hh.lower
  rw [ofpmsgRecvError,net16_inside (by omega),ok_bind]
  split
  · rename_i hneg
    have hstate : ¬ d.state = .completed := fun hstate => by
      rw [switchEventRecvError,if_pos hstate] at hneg
      exact absurd hneg (by decide)
    refine ⟨message,.self _,?_⟩
    rw [if_neg (fun h => hstate h.1)]
    rfl
  · rename_i hneg
    have hstate : d.state = .completed := by
      by_contra hstate
      rw [switchEventRecvError,if_neg hstate] at hneg
      exact hneg (by decide)
    have hzero : d.switchEventRecvError = 0 := if_pos hstate
    rw [hzero]
    split
    · rename_i htype
      have hsub : subSize message.length quotedFlowMod = message.length - 12 := subSize_of_le hmin
      obtain ⟨m,hquoted,hreceived⟩ := recvFlowModFailed_ok hd hmin htype
      have hlen : 8 ≤ m.length := by
        rw [hquoted.length]
        omega
      refine ⟨m,hquoted,?_⟩
      rw [net16_inside (by omega),ok_bind,hh.length,hsub,hreceived,ok_bind]
      by_cases hnamed : Unnamed message
      · rw [if_pos hnamed,if_neg (fun h => h.2 hnamed)]
        rfl
      · rw [if_neg hnamed,if_pos ⟨hstate,hnamed⟩]
        exact answer_eq hlen
    · rename_i htype
      have htable : d.failedTable message = d.cookieTable := if_neg fun hall => htype hall.1
      refine ⟨message,.self _,?_⟩
      rw [if_pos ⟨hstate,fun hun => htype hun.1⟩,htable]
      exact answer_eq (by omega)

theorem ofpmsgRecvError_early (hh : Headed message .error 12 65535) (hstate : d.state ≠ .completed) :
    d.ofpmsgRecvError message = .ok ⟨-1,d⟩ := by
  have hmin := hh.lower
  have hret : d.switchEventRecvError = -1 := if_neg hstate
  rw [ofpmsgRecvError,net16_inside (by omega),ok_bind,hret]
  rfl

end Errors

section Dispatch

theorem ofpmsgRecvEchorequest_eq (hmin : 8 ≤ message.length) (hmax : message.length ≤ 65535) :
    d.ofpmsgRecvEchorequest message =
      .ok (d.sent (framed (be32 message 4) .echoReply (message.drop 8))) := by
  have hbody : removeFrontBuffer message 8 = .ok (message.drop 8) := by
    rw [removeFrontBuffer,abortIf,if_neg (by omega)]
    rfl
  have hecho : createEchoReply (be32 message 4) (some (message.drop 8)) =
      .ok (framed (be32 message 4) .echoReply (message.drop 8)) := createEcho_eq (by simp; omega)
  rw [ofpmsgRecvEchorequest,hbody,ok_bind,net32_inside (by omega),ok_bind,ofpmsgSendEchoreply,hecho,
    ok_bind,sendToSecureChannel_eq (framed_pos _ _ _)]

theorem answered_cookieTable : (d.answered message).cookieTable = d.cookieTable := by
  rw [answered]
  cases d.xidTable.lookupXidEntry (be32 message 4) with
  | none => rfl
  | some entry => rfl

theorem failedTable_linked (hd : d.cookieTable.Linked) : (d.failedTable message).Linked := by
  rw [failedTable]
  split
  · have hfound : ∀ id, d.cookieTable.lookupCookieEntryByCookie (be64 message 60) = some id →
        ∃ e, d.cookieTable.heap id = some e := by
      intro id hid
      obtain ⟨e,he,_⟩ := (hd.global _ id).mp hid
      exact ⟨e,he⟩
    obtain ⟨t,ht,hlinked,_⟩ := CookieTable.deleteFound_spec hd hfound
    rw [ht]
    exact hlinked
  · exact hd

theorem deliverFlowRemoved_ok (entry : CookieEntry) (h : 56 ≤ message.length) :
    ∃ d', d.deliverFlowRemoved message entry = .ok d' ∧ d'.cookieTable = d.cookieTable := by
  rw [deliverFlowRemoved]
  split
  · rw [store_eq_overwrite (by simp; omega),ok_bind]
    exact ⟨_,rfl,rfl⟩
  · exact ⟨_,rfl,rfl⟩

theorem ofpmsgRecvFlowremoved_ok (hd : d.cookieTable.Linked) (h : 56 ≤ message.length) :
    ∃ outcome, d.ofpmsgRecvFlowremoved message = .ok outcome ∧ outcome.info.cookieTable.Linked := by
  rw [ofpmsgRecvFlowremoved,net64_inside (by omega),ok_bind]
  split
  · exact ⟨_,rfl,hd⟩
  · split
    · exact ⟨_,rfl,hd⟩
    · cases hfound : d.cookieTable.lookupCookieEntryByCookie (be64 message 48) with
      | none => exact ⟨_,rfl,hd⟩
      | some id =>
        obtain ⟨e,hentry,he,_⟩ := foundEntry_ok hd hfound
        obtain ⟨d',hdelivered,hsame⟩ := deliverFlowRemoved_ok e h
        obtain ⟨d'',hdeleted,hlinked⟩ := deleteCookieEntry_ok (by rw [hsame]; exact hd)
          (show d'.cookieTable.heap id = some e by rw [hsame]; exact he)
        simp only [hentry,hdelivered,hdeleted,ok_bind]
        exact ⟨_,rfl,hlinked⟩

theorem settled_ofpmsgRecvStatsreply : Settled (fun n => d.ofpmsgRecvStatsreply n message) :=
  settled_bind (OpenFlow.settled_ofpmsgRecvStatsreply message _ _) (fun _ => settled_const _)

theorem translated_header (hh : Headed message .statsReply 12 65535) {lookup : UInt64 → Option UInt64}
    {translation : Bool} {m : Bytes} {n : Nat}
    (h : OpenFlow.ofpmsgRecvStatsreply lookup translation n message = .ok m) :
    m.length = message.length ∧ be32 m 4 = be32 message 4 ∧ be16 m 10 = be16 message 10 := by
  obtain ⟨m',hm',hlen,hkeep⟩ := translated_of_fits hh (fits_of_translated hh ⟨by simp,n,h⟩)
  have hsame := (OpenFlow.settled_ofpmsgRecvStatsreply message _ _).yields_unique hm' ⟨by simp,n,h⟩
  injection hsame with hsame
  rw [← hsame,be32,be32,be16,be16,hkeep 4 4 (by omega),hkeep 10 2 (by omega)]
  exact ⟨hlen,rfl,rfl⟩

theorem statsreply_ok {m : Bytes} {n : Nat} (hmin : 12 ≤ m.length)
    (h : OpenFlow.ofpmsgRecvStatsreply d.applicationCookie d.cookieTranslation n message = .ok m) :
    ∃ outcome, d.ofpmsgRecvStatsreply n message = .ok outcome := by
  simp only [ofpmsgRecvStatsreply,h,ok_bind,net32_inside (show 4 + 4 ≤ m.length by omega)]
  cases d.xidTable.lookupXidEntry (be32 m 4) with
  | none => exact ⟨_,rfl⟩
  | some entry =>
    have hfit : 4 + (toNet32 entry.originalXid).length ≤ m.length := by
      simp
      omega
    have hover := length_overwrite hfit
    simp only [store_eq_overwrite hfit,ok_bind,net16_inside
      (show 10 + 2 ≤ (overwrite m 4 (toNet32 entry.originalXid)).length by omega)]
    split <;> exact ⟨_,rfl⟩

theorem ofpmsgRecvStatsreply_yields_iff (hh : Headed message .statsReply 12 65535) :
    (∃ outcome, Yields (fun n => d.ofpmsgRecvStatsreply n message) (.ok outcome)) ↔
      FitsTranslation d.applicationCookie d.cookieTranslation message := by
  constructor
  · rintro ⟨outcome,_,n,hn⟩
    simp only [ofpmsgRecvStatsreply] at hn
    obtain ⟨m,hm,_⟩ := bind_eq_ok.mp hn
    exact fits_of_translated hh ⟨by simp,n,hm⟩
  · intro h
    obtain ⟨m,⟨_,n,hn⟩,hlen,_⟩ := translated_of_fits hh h
    have hmin := hh.lower
    obtain ⟨outcome,ho⟩ := statsreply_ok (by omega) hn
    exact ⟨outcome,by simp,n,ho⟩

theorem statsreply_cookieTable {n : Nat} {outcome : Outcome}
    (h : d.ofpmsgRecvStatsreply n message = .ok outcome) : outcome.info.cookieTable = d.cookieTable := by
  simp only [ofpmsgRecvStatsreply] at h
  obtain ⟨m,_,h⟩ := bind_eq_ok.mp h
  obtain ⟨xid,_,h⟩ := bind_eq_ok.mp h
  cases hx : d.xidTable.lookupXidEntry xid with
  | none =>
    rw [hx] at h
    injection h with h
    rw [← h]
  | some entry =>
    rw [hx] at h
    obtain ⟨reply,_,h⟩ := bind_eq_ok.mp h
    obtain ⟨flags,_,h⟩ := bind_eq_ok.mp h
    split at h
    · injection h with h
      rw [← h]
      rfl
    · injection h with h
      rw [← h]
      rfl

variable (d message) in
-- What the branch for a type calls for; the types that only a controller sends have none.
def Manages : OfpType → Prop
  | .statsReply => FitsTranslation d.applicationCookie d.cookieTranslation message
  | .featuresRequest => False
  | .getConfigRequest => False
  | .setConfig => False
  | .packetOut => False
  | .flowMod => False
  | .portMod => False
  | .statsRequest => False
  | .barrierRequest => False
  | .queueGetConfigRequest => False
  | _ => True

theorem settled_dispatchMessage (env : Surroundings) (t : OfpType) :
    Settled (fun n => d.dispatchMessage n env message t) := by
  cases t with
  | statsReply => exact settled_ofpmsgRecvStatsreply
  | _ => exact settled_const _

theorem dispatchMessage_ok (hd : d.cookieTable.Linked) (env : Surroundings) {t : OfpType}
    (hh : Headed message t (minLength t) 65535) (ht : d.Manages message t) (hstats : t ≠ .statsReply)
    (n : Nat) : ∃ outcome, d.dispatchMessage n env message t = .ok outcome ∧
      outcome.info.cookieTable.Linked := by
  have hfits := hh.fits
  have hmin := hh.lower
  have hanswered : ∀ {d' : SwitchInfo}, d'.cookieTable = d.cookieTable →
      (d'.answered message).cookieTable.Linked := by
    intro d' hsame
    rw [answered_cookieTable,hsame]
    exact hd
  cases t with
  | statsReply => exact absurd rfl hstats
  | hello =>
    obtain ⟨outcome,ho,hinternal⟩ := d.switchEventRecvHello_ok
    exact ⟨outcome,ho,by rw [hinternal.cookieTable]; exact hd⟩
  | error =>
    obtain ⟨m,_,hm⟩ := ofpmsgRecvError_eq hd hh
    refine ⟨_,hm,?_⟩
    simp only
    split
    · rw [answered_cookieTable]
      exact failedTable_linked hd
    · exact hd
  | echoRequest =>
    exact ⟨_,ofpmsgRecvEchorequest_eq hfits hh.upper,by rw [(internal_sent _).cookieTable]; exact hd⟩
  | echoReply =>
    obtain ⟨received,hreceived,hret,hinternal⟩ := d.switchEventRecvEchoreply_ok message
    simp only [dispatchMessage,ofpmsgRecvEchoreply,hreceived,ok_bind,hret,answer_eq hfits]
    exact ⟨_,rfl,hanswered hinternal.cookieTable⟩
  | featuresReply =>
    obtain ⟨received,hreceived,hinternal⟩ := d.switchEventRecvFeaturesreply_ok env (be64 message 8)
    simp only [minLength] at hmin
    simp only [dispatchMessage,ofpmsgRecvFeaturesreply,net64_inside (show 8 + 8 ≤ message.length by omega),
      hreceived,ok_bind,answer_eq hfits]
    split
    · exact ⟨_,rfl,by rw [hinternal.cookieTable]; exact hd⟩
    · exact ⟨_,rfl,hanswered hinternal.cookieTable⟩
  | flowRemoved =>
    simp only [minLength] at hmin
    exact ofpmsgRecvFlowremoved_ok hd (by omega)
  | getConfigReply => exact ⟨_,answer_eq hfits,hanswered rfl⟩
  | barrierReply => exact ⟨_,answer_eq hfits,hanswered rfl⟩
  | queueGetConfigReply => exact ⟨_,answer_eq hfits,hanswered rfl⟩
  | vendor => exact ⟨_,rfl,hd⟩
  | packetIn => exact ⟨_,rfl,hd⟩
  | portStatus => exact ⟨_,rfl,hd⟩
  | _ => exact absurd ht id

theorem manages_of_ok {n : Nat} {env : Surroundings} {t : OfpType} {outcome : Outcome} (hstats : t ≠ .statsReply)
    (h : d.dispatchMessage n env message t = .ok outcome) : d.Manages message t := by
  cases t with
  | statsReply => exact absurd rfl hstats
  | featuresRequest => exact absurd h (by simp [dispatchMessage])
  | getConfigRequest => exact absurd h (by simp [dispatchMessage])
  | setConfig => exact absurd h (by simp [dispatchMessage])
  | packetOut => exact absurd h (by simp [dispatchMessage])
  | flowMod => exact absurd h (by simp [dispatchMessage])
  | portMod => exact absurd h (by simp [dispatchMessage])
  | statsRequest => exact absurd h (by simp [dispatchMessage])
  | barrierRequest => exact absurd h (by simp [dispatchMessage])
  | queueGetConfigRequest => exact absurd h (by simp [dispatchMessage])
  | _ => exact trivial

theorem dispatchMessage_linked (hd : d.cookieTable.Linked) {env : Surroundings} {t : OfpType}
    (hh : Headed message t (minLength t) 65535) {n : Nat} {outcome : Outcome}
    (h : d.dispatchMessage n env message t = .ok outcome) : outcome.info.cookieTable.Linked := by
  by_cases hstats : t = .statsReply
  · subst hstats
    rw [statsreply_cookieTable h]
    exact hd
  · obtain ⟨_,ho,hlinked⟩ := dispatchMessage_ok hd env hh (manages_of_ok hstats h) hstats n
    rw [h] at ho
    injection ho with ho
    rw [ho]
    exact hlinked

theorem dispatchMessage_yields_iff (hd : d.cookieTable.Linked) (env : Surroundings) {t : OfpType}
    (hh : Headed message t (minLength t) 65535) :
    (∃ outcome, Yields (fun n => d.dispatchMessage n env message t) (.ok outcome)) ↔
      d.Manages message t := by
  by_cases hstats : t = .statsReply
  · subst hstats
    exact ofpmsgRecvStatsreply_yields_iff hh
  · constructor
    · rintro ⟨outcome,_,n,hn⟩
      exact manages_of_ok hstats hn
    · intro ht
      obtain ⟨outcome,ho,_⟩ := dispatchMessage_ok hd env hh ht hstats 0
      exact ⟨outcome,by simp,0,ho⟩

theorem rejectMessage_eq (h : 8 ≤ message.length) (error : ValidationError) :
    d.rejectMessage message error = .ok ⟨-1,(d.withXid.sent (framed d.generatedXid .error
      (toNet16 (getErrorTypeAndCode (hostByte message 1) error badType).type ++
        toNet16 (getErrorTypeAndCode (hostByte message 1) error badType).code ++
        message.take ofpErrorMsgMaxData))).info⟩ := by
  rw [rejectMessage,byteAt_inside (by omega),ok_bind]
  simp only [ofpmsgSendErrorMsg_eq,ok_bind]
  rfl

theorem ofpmsgRecv_accepted (h : Accepts message) {t : OfpType}
    (ht : OfpType.ofCode (hostByte message 1) = some t) (env : Surroundings) (r : Exec Outcome) :
    Yields (fun n => d.ofpmsgRecv n env message) r ↔
      Yields (fun n => d.dispatchMessage n env message t) r := by
  obtain ⟨n₀,hvalid⟩ := (settled_validateOpenflowMessage message).eventually h
  have hfits : 8 ≤ message.length := by
    obtain ⟨s,_,hs⟩ := h.type
    exact (headed_of_accepted hs).fits
  have heq : ∀ n, n₀ ≤ n → d.ofpmsgRecv n env message = d.dispatchMessage n env message t := by
    intro n hn
    simp only [ofpmsgRecv,hvalid n hn,byteAt_inside (show 1 + 1 ≤ message.length by omega),ok_bind,ht]
  constructor
  · rintro ⟨hne,n,hn⟩
    have hstop : validateOpenflowMessage n message ≠ .error .outOfFuel := by
      intro hout
      simp only [ofpmsgRecv,hout] at hn
      exact hne hn.symm
    have hok : validateOpenflowMessage n message = .ok () :=
      (settled_validateOpenflowMessage message).yields_eq h hstop
    refine ⟨hne,n,?_⟩
    simp only [ofpmsgRecv,hok,byteAt_inside (show 1 + 1 ≤ message.length by omega),ok_bind,ht] at hn
    exact hn
  · rintro hr
    obtain ⟨n₁,hn⟩ := (settled_dispatchMessage env t).eventually hr
    refine ⟨hr.1,max n₀ n₁,?_⟩
    simp only [heq _ (Nat.le_max_left n₀ n₁),hn _ (Nat.le_max_right n₀ n₁)]

variable (d) in
theorem ofpmsgRecv_rejected (hm : 8 ≤ message.length) {error : ValidationError}
    (h : Rejects message error) (env : Surroundings) :
    Yields (fun n => d.ofpmsgRecv n env message) (d.rejectMessage message error) := by
  obtain ⟨_,n,hn⟩ := h
  refine ⟨by rw [rejectMessage_eq hm]; simp,n,?_⟩
  simp only at hn
  simp only [ofpmsgRecv,hn]

theorem ofpmsgRecv_linked (hd : d.cookieTable.Linked) (hm : 8 ≤ message.length) {env : Surroundings}
    {n : Nat} {outcome : Outcome} (h : d.ofpmsgRecv n env message = .ok outcome) :
    outcome.info.cookieTable.Linked := by
  rw [ofpmsgRecv] at h
  split at h
  · rw [rejectMessage_eq hm] at h
    injection h with h
    rw [← h,(internal_generated _).cookieTable]
    exact hd
  · exact absurd h (by simp)
  · rename_i hvalid
    have haccepted : Accepts message := ⟨by simp,n,hvalid⟩
    obtain ⟨t,ht,htype⟩ := haccepted.type
    rw [byteAt_inside (by omega),ok_bind,ht] at h
    exact dispatchMessage_linked hd (headed_of_accepted htype) h

end Dispatch

section Service

variable (d message)

def errorReply (code : ErrorCode) : Bytes :=
  framed d.generatedXid .error (toNet16 code.type ++ toNet16 code.code ++ message.take ofpErrorMsgMaxData)

-- The message is handled, or rejected with an error message and a negative return.
def Served (env : Surroundings) : Prop :=
  ∃ outcome, Yields (fun n => d.ofpmsgRecv n env message) (.ok outcome) ∧
    (Accepts message ∨ outcome.ret < 0 ∧ (d.sending = true → ∃ code,
      outcome.info.outputs = d.outputs ++ [.toSwitch (d.errorReply message code)]))

structure Manageable : Prop where
  ends : ¬ Endless message
  inside : ReadsInside message
  managed : Accepts message → ∀ t, OfpType.ofCode (hostByte message 1) = some t → d.Manages message t

variable {d message}

theorem outputs_sent (hsending : d.sending = true) :
    (d.withXid.sent message).info.outputs = d.outputs ++ [.toSwitch message] := by
  have hsame : d.withXid.sending = true := hsending
  rw [sent,if_pos hsame]
  rfl

theorem served_of_rejected (hm : 8 ≤ message.length) {error : ValidationError}
    (h : Rejects message error) (env : Surroundings) : d.Served message env := by
  have hy := d.ofpmsgRecv_rejected hm h env
  rw [rejectMessage_eq hm] at hy
  exact ⟨_,hy,.inr ⟨Int.negSucc_lt_zero 0,fun hsending => ⟨_,outputs_sent hsending⟩⟩⟩

end Service

end SwitchInfo

theorem SwitchInfo.Served.manageable {d : SwitchInfo} (hd : d.cookieTable.Linked) {env : Surroundings}
    {message : Bytes} (hm : 8 ≤ message.length) (h : d.Served message env) : d.Manageable message := by
  obtain ⟨outcome,hy,_⟩ := h
  have hjudged : Accepts message ∨ ∃ error, Rejects message error := by
    obtain ⟨_,n,hn⟩ := hy
    simp only [SwitchInfo.ofpmsgRecv] at hn
    split at hn
    · rename_i error hvalid
      exact .inr ⟨error,by simp,n,hvalid⟩
    · exact absurd hn (by simp)
    · rename_i hvalid
      exact .inl ⟨by simp,n,hvalid⟩
  obtain ⟨hends,hinside⟩ := (judged_iff hm).mp hjudged
  refine ⟨hends,hinside,fun hacc t ht => ?_⟩
  obtain ⟨s,hs,hvalid⟩ := hacc.type
  rw [ht] at hs
  rw [← Option.some.inj hs] at hvalid
  exact (SwitchInfo.dispatchMessage_yields_iff hd env (headed_of_accepted hvalid)).mp
    ⟨outcome,(SwitchInfo.ofpmsgRecv_accepted hacc ht env _).mp hy⟩

theorem SwitchInfo.Manageable.served {d : SwitchInfo} (hd : d.cookieTable.Linked) (env : Surroundings)
    {message : Bytes} (hm : 8 ≤ message.length) (h : d.Manageable message) : d.Served message env := by
  obtain ⟨hends,hinside,hmanaged⟩ := h
  rcases (judged_iff hm).mpr ⟨hends,hinside⟩ with hacc | ⟨error,hrej⟩
  · obtain ⟨t,ht,hvalid⟩ := hacc.type
    obtain ⟨outcome,hy⟩ := (SwitchInfo.dispatchMessage_yields_iff hd env
      (headed_of_accepted hvalid)).mpr (hmanaged hacc t ht)
    exact ⟨outcome,(SwitchInfo.ofpmsgRecv_accepted hacc ht env _).mpr hy,.inl hacc⟩
  · exact SwitchInfo.served_of_rejected hm hrej env

theorem message_served_iff (d : SwitchInfo) (hd : d.cookieTable.Linked) (env : Surroundings)
    (message : Bytes) (hm : 8 ≤ message.length) : d.Served message env ↔ d.Manageable message :=
  ⟨SwitchInfo.Served.manageable hd hm,SwitchInfo.Manageable.served hd env hm⟩

def plainOptions : StartOptions := ⟨[],[],[],[],true,true,false⟩

def quietSurroundings : Surroundings := ⟨true,true,0⟩

def completedInfo : SwitchInfo := { initSwitchInfo plainOptions with state := .completed }

def helloMessage : Bytes := [1,0,0,8,0,0,0,1]

theorem hello_type {t : OfpType} (ht : OfpType.ofCode (hostByte helloMessage 1) = some t) : t = .hello := by
  have hello : OfpType.ofCode (hostByte helloMessage 1) = some .hello := by decide
  rw [hello] at ht
  exact (Option.some.inj ht).symm

theorem hello_judged : ¬ Endless helloMessage ∧ ReadsInside helloMessage := by
  constructor
  · rintro ⟨t,ht,hendless⟩
    rw [hello_type ht] at hendless
    exact hendless
  · intro t ht
    rw [hello_type ht]
    trivial

theorem hello_manageable (d : SwitchInfo) : d.Manageable helloMessage := by
  refine ⟨hello_judged.1,hello_judged.2,fun _ t ht => ?_⟩
  rw [hello_type ht]
  trivial

theorem message_served_hello : (initSwitchInfo plainOptions).Served helloMessage quietSurroundings :=
  (message_served_iff (initSwitchInfo plainOptions) CookieTable.init_linked quietSurroundings helloMessage
    (by decide)).mpr (hello_manageable _)

def barrierRequestMessage : Bytes := [1,18,0,8,0,0,0,1]

-- validate_openflow_message accepts what a controller sends too, and ofpmsg_recv has no branch for it.
theorem barrier_request_aborts : Accepts barrierRequestMessage ∧
    (∀ n, (initSwitchInfo plainOptions).ofpmsgRecv n quietSurroundings barrierRequestMessage =
      .error .aborted) ∧
    ¬ (initSwitchInfo plainOptions).Served barrierRequestMessage quietSurroundings := by
  have hvalid : ∀ n, validateOpenflowMessage n barrierRequestMessage = .ok () := fun n => rfl
  have habort : ∀ n, (initSwitchInfo plainOptions).ofpmsgRecv n quietSurroundings barrierRequestMessage =
      .error .aborted := by
    intro n
    simp only [SwitchInfo.ofpmsgRecv,hvalid]
    rfl
  refine ⟨⟨by simp,0,hvalid 0⟩,habort,?_⟩
  rintro ⟨outcome,⟨_,n,hn⟩,_⟩
  simp only [habort] at hn
  exact absurd hn (by simp)

end Trema.SwitchManager
