import Trema.SwitchManager.ChannelReads
import Trema.SwitchManager.CookieEffects

namespace Trema.SwitchManager

open Library
open OpenFlow
open SecureChannel

def replyTypes : List OfpType :=
  [.error,.echoReply,.featuresReply,.getConfigReply,.statsReply,.barrierReply,.queueGetConfigReply]

namespace SwitchInfo

variable {d : SwitchInfo} {message : Bytes}

section Withdrawal

variable (d message) in
-- The failed flow_mod gives up a reference to an entry of the cookie table.
def Withdraws : Prop :=
  be16 message 8 = ofpetFlowModFailed ∧ d.cookieTranslation = true ∧ 70 ≤ message.length ∧
    FlowModCommand.ofCode (be16 message 68) = some .add ∧
    (d.cookieTable.lookupCookieEntryByCookie (be64 message 60)).isSome = true

theorem released_ne {e : CookieEntry} (hsound : e.Sound) : CookieTable.released e ≠ some e := by
  intro hsame
  obtain ⟨_,_,hcount⟩ := CookieTable.released_counts hsound hsame
  omega

theorem failedTable_eq_iff (hd : d.cookieTable.Linked) :
    d.failedTable message = d.cookieTable ↔ ¬ d.Withdraws message := by
  rw [failedTable]
  split
  · rename_i hfailed
    obtain ⟨htype,hon,hlong,hadd⟩ := hfailed
    cases hfound : d.cookieTable.lookupCookieEntryByCookie (be64 message 60) with
    | none =>
      refine iff_of_true rfl ?_
      rintro ⟨_,_,_,_,hsome⟩
      rw [hfound] at hsome
      exact absurd hsome (by simp)
    | some id =>
      refine iff_of_false ?_ (not_not_intro ⟨htype,hon,hlong,hadd,by rw [hfound]; rfl⟩)
      obtain ⟨e,he,_⟩ := (hd.global _ id).mp hfound
      obtain ⟨t,hdelete,_,hentries⟩ := CookieTable.delete_effect hd he
      rw [CookieTable.deleteFound,hdelete,Option.getD_some]
      intro hsame
      have hentry := hentries e.key
      rw [hsame,if_pos rfl,CookieTable.entryOf_self hd he] at hentry
      exact released_ne (hd.sound id e he) hentry.symm
  · rename_i hfailed
    refine iff_of_true rfl ?_
    rintro ⟨htype,hon,hlong,hadd,_⟩
    exact hfailed ⟨htype,hon,hlong,hadd⟩

theorem unnamed_keeps (hd : d.cookieTable.Linked) (h : Unnamed message) :
    d.failedTable message = d.cookieTable := by
  refine (failedTable_eq_iff hd).mpr ?_
  rintro ⟨_,_,_,_,hsome⟩
  obtain ⟨id,hid⟩ := Option.isSome_iff_exists.mp hsome
  obtain ⟨e,he,hcookie⟩ := (hd.global _ id).mp hid
  exact (hd.sound id e he).notReserved (hcookie.trans h.2.2)

end Withdrawal

section Replies

-- The xid table, the outputs and the connection as they were.
structure Undisturbed (d d' : SwitchInfo) : Prop where
  xids : d'.xidTable = d.xidTable
  cookies : d'.cookieTable = d.cookieTable
  outputs : d'.outputs = d.outputs
  stopped : d'.stopped = d.stopped
  state : d'.state = d.state
  sending : d'.sending = d.sending

theorem Undisturbed.self (d : SwitchInfo) : Undisturbed d d := ⟨rfl,rfl,rfl,rfl,rfl,rfl⟩

theorem undisturbed_unset (callback : TimerCallback) : Undisturbed d (d.switchUnsetTimeout callback) := by
  rw [switchUnsetTimeout]
  split
  · exact ⟨rfl,rfl,rfl,rfl,rfl,rfl⟩
  · exact .self d

theorem answered_unknown (hx : d.xidTable.lookupXidEntry (be32 message 4) = none) :
    d.answered message = d := by
  rw [answered,hx]

variable (d message) in
theorem echoreply_undisturbed : ∃ info, d.switchEventRecvEchoreply message = .ok ⟨0,info⟩ ∧
    Undisturbed d info := by
  rw [switchEventRecvEchoreply]
  split
  · exact ⟨_,rfl,.self d⟩
  · rename_i hlen
    rw [not_not,echoBodyLength] at hlen
    rw [net32_inside (by omega),ok_bind,net64_inside (by omega),ok_bind]
    split
    · exact ⟨_,rfl,.self d⟩
    · split
      · exact ⟨_,rfl,.self d⟩
      · exact ⟨_,rfl,undisturbed_unset _⟩

variable (hd : d.cookieTable.Linked) (hstate : d.state = .completed)
  (hunknown : d.xidTable.lookupXidEntry (be32 message 4) = none)

include hd hstate hunknown

theorem unknown_error (hh : Headed message .error 12 65535) :
    d.ofpmsgRecvError message = .ok ⟨0,{ d with cookieTable := d.failedTable message }⟩ := by
  obtain ⟨m,hquoted,hm⟩ := ofpmsgRecvError_eq hd hh
  have hzero : d.switchEventRecvError = 0 := if_pos hstate
  rw [hm,hzero]
  by_cases hnamed : Unnamed message
  · rw [if_neg (fun h => h.2 hnamed),unnamed_keeps hd hnamed]
  · rw [if_pos ⟨hstate,hnamed⟩,answered_unknown]
    rw [hquoted.xid]
    exact hunknown

theorem unknown_reply {t : OfpType} (ht : t ∈ replyTypes) (hstats : t ≠ .statsReply)
    (hh : Headed message t (minLength t) 65535) (env : Surroundings) (n : Nat) :
    ∃ info, d.dispatchMessage n env message t = .ok ⟨0,info⟩ ∧ Undisturbed
      { d with cookieTable := if t = .error then d.failedTable message else d.cookieTable } info := by
  have hfits := hh.fits
  have hmin := hh.lower
  have hanswer : d.answer message = .ok ⟨0,d⟩ := by rw [answer_eq hfits,answered_unknown hunknown]
  simp only [replyTypes,List.mem_cons,List.not_mem_nil,or_false] at ht
  rcases ht with rfl | rfl | rfl | rfl | rfl | rfl | rfl
  · exact ⟨_,unknown_error hd hstate hunknown hh,.self _⟩
  · obtain ⟨info,hreceived,hsame⟩ := d.echoreply_undisturbed message
    have hinfo : info.xidTable.lookupXidEntry (be32 message 4) = none := by
      rw [hsame.xids]
      exact hunknown
    refine ⟨info,?_,hsame⟩
    rw [dispatchMessage,ofpmsgRecvEchoreply,hreceived,ok_bind]
    simp only [answer_eq hfits,answered_unknown hinfo]
    rfl
  · have hreceived : d.switchEventRecvFeaturesreply env (be64 message 8) = .ok ⟨0,d⟩ := by
      rw [switchEventRecvFeaturesreply,hstate]
      rfl
    simp only [minLength] at hmin
    refine ⟨d,?_,.self d⟩
    rw [dispatchMessage,ofpmsgRecvFeaturesreply,net64_inside (by omega),ok_bind,hreceived,ok_bind]
    exact hanswer
  · exact ⟨d,hanswer,.self d⟩
  · exact absurd rfl hstats
  · exact ⟨d,hanswer,.self d⟩
  · exact ⟨d,hanswer,.self d⟩

omit hd hstate in
theorem unknown_statsreply (hh : Headed message .statsReply 12 65535) {outcome : Outcome} {n : Nat}
    (h : d.ofpmsgRecvStatsreply n message = .ok outcome) : outcome.ret = -1 := by
  have hmin := hh.lower
  simp only [ofpmsgRecvStatsreply] at h
  obtain ⟨m,hm,hrest⟩ := bind_eq_ok.mp h
  obtain ⟨hlen,hxid,_⟩ := translated_header hh hm
  rw [net32_inside (by omega),ok_bind,hxid,hunknown] at hrest
  injection hrest with hrest
  rw [← hrest]

end Replies

end SwitchInfo

namespace Daemon

-- The read changes neither table, nothing goes out, and the daemon goes on to read.
def Ignores (d : Daemon) (heap : Nat → UInt8) (env : Surroundings) (bytes : Bytes) : Prop :=
  ∃ d', Yields (fun n => d.secureChannelRead heap n env (.data bytes)) (.ok d') ∧
    d'.info.xidTable = d.info.xidTable ∧ d'.info.cookieTable = d.info.cookieTable ∧
    d'.info.outputs = d.info.outputs ∧ d'.info.stopped = false ∧ d'.info.state = .completed ∧
    d'.info.sending = true ∧ d'.flushing = d.flushing ∧ d'.Reads []

variable {d : Daemon} {rest bytes message : Bytes} {heap : Nat → UInt8} {env : Surroundings} {t : OfpType}
  (hstate : d.info.state = .completed) (hsending : d.info.sending = true)
  (hrunning : d.info.stopped = false) (hlinked : d.info.cookieTable.Linked) (hreads : d.Reads rest)
  (hmessage : rest ++ bytes = message) (haccepted : Accepts message)
  (htype : OfpType.ofCode (hostByte message 1) = some t)
  (hunknown : d.info.xidTable.lookupXidEntry (be32 message 4) = none)

include hreads hmessage haccepted htype hunknown

theorem statsreply_not_ignored (hstats : t = .statsReply) : ¬ d.Ignores heap env bytes := by
  subst hstats
  rintro ⟨d',⟨_,n,hn⟩,_,_,_,hstopped,_⟩
  obtain ⟨received,receiver,_,_,hread⟩ := read_accepted heap env hreads hmessage haccepted
  simp only [hread] at hn
  obtain ⟨outcome,hrecv,hd'⟩ := bind_eq_ok.mp hn
  obtain ⟨_,k,hdispatch⟩ := (SwitchInfo.ofpmsgRecv_accepted haccepted htype env _).mp
    ⟨by simp,n,hrecv⟩
  have hret := SwitchInfo.unknown_statsreply (d := { d.info with receiver := received }) hunknown
    (headed_of_type haccepted htype) hdispatch
  injection hd' with hd'
  rw [← hd'] at hstopped
  have hcounted : (SwitchInfo.countError 0 outcome).1 = 1 := by
    rw [SwitchInfo.countError,hret]
    rfl
  rw [withInfo,SwitchInfo.concluded,if_neg (by rw [hcounted]; decide)] at hstopped
  exact absurd hstopped (by simp)

include hstate hlinked hsending hrunning

theorem reply_ignored_iff (hreply : t ∈ replyTypes) (hstats : t ≠ .statsReply) :
    d.Ignores heap env bytes ↔ ¬ (t = .error ∧ d.info.Withdraws message) := by
  obtain ⟨received,receiver,hdrained,hkeeps,hread⟩ := read_accepted heap env hreads hmessage haccepted
  obtain ⟨info,hdispatch,hsame⟩ := SwitchInfo.unknown_reply (d := { d.info with receiver := received })
    hlinked hstate hunknown hreply hstats (headed_of_type haccepted htype) env 0
  obtain ⟨_,k,hrecv⟩ := (SwitchInfo.ofpmsgRecv_accepted haccepted htype env (.ok ⟨0,info⟩)).mpr
    ⟨by simp,0,hdispatch⟩
  have htable : info.cookieTable = d.info.cookieTable ↔ ¬ (t = .error ∧ d.info.Withdraws message) := by
    rw [hsame.cookies]
    split
    · rename_i herror
      simp only [herror,true_and]
      exact SwitchInfo.failedTable_eq_iff (d := { d.info with receiver := received }) hlinked
    · rename_i herror
      exact iff_of_true rfl fun h => herror h.1
  rw [← htable]
  constructor
  · rintro ⟨d',⟨_,n,hn⟩,_,hcookies,_⟩
    simp only [hread] at hn
    obtain ⟨outcome,hrecv',hd'⟩ := bind_eq_ok.mp hn
    have hunique := (SwitchInfo.settled_ofpmsgRecv _ _ env).yields_unique ⟨by simp,k,hrecv⟩
      ⟨by simp,n,hrecv'⟩
    injection hunique with hunique
    injection hd' with hd'
    rw [← hd',← hunique] at hcookies
    exact hcookies
  · intro hcookies
    refine ⟨d.withInfo (SwitchInfo.concluded (0,info) receiver),⟨by simp,k,?_⟩,hsame.xids,hcookies,
      hsame.outputs,hsame.stopped.trans hrunning,hsame.state.trans hstate,hsame.sending.trans hsending,rfl,
      hdrained,hkeeps⟩
    simp only [hread]
    simp only at hrecv
    rw [hrecv]
    rfl

end Daemon

theorem late_reply_ignored_iff (d : Daemon) (hstate : d.info.state = .completed)
    (hsending : d.info.sending = true) (hrunning : d.info.stopped = false)
    (hlinked : d.info.cookieTable.Linked) (rest bytes : Bytes) (hreads : d.Reads rest)
    (haccepted : Accepts (rest ++ bytes)) (t : OfpType)
    (htype : OfpType.ofCode (hostByte (rest ++ bytes) 1) = some t) (hreply : t ∈ replyTypes)
    (hunknown : d.info.xidTable.lookupXidEntry (be32 (rest ++ bytes) 4) = none)
    (heap : Nat → UInt8) (env : Surroundings) :
    d.Ignores heap env bytes ↔
      t ≠ .statsReply ∧ ¬ (t = .error ∧ d.info.Withdraws (rest ++ bytes)) := by
  by_cases hstats : t = .statsReply
  · exact iff_of_false
      (Daemon.statsreply_not_ignored hreads rfl haccepted htype hunknown hstats)
      fun h => h.1 hstats
  · rw [Daemon.reply_ignored_iff hstate hsending hrunning hlinked hreads rfl haccepted htype hunknown
      hreply hstats,and_iff_right hstats]

def completedDaemon : Daemon := ⟨completedInfo,0,false,none,false⟩

theorem completed_reads : completedDaemon.Reads [] :=
  ⟨Holds.create,fun _ => rfl,fun b hb => by simp [completedDaemon,completedInfo,initSwitchInfo] at hb⟩

def barrierReplyMessage : Bytes := [1,19,0,8,0,0,0,9]

theorem late_barrier_reply_ignored :
    completedDaemon.Ignores (fun _ => 0) quietSurroundings barrierReplyMessage := by
  have hvalid : Accepts barrierReplyMessage := ⟨by simp,1,by decide +kernel⟩
  refine (late_reply_ignored_iff completedDaemon rfl rfl rfl CookieTable.init_linked [] barrierReplyMessage
    completed_reads hvalid .barrierReply (by decide) (by decide) rfl (fun _ => 0) quietSurroundings).mpr ?_
  exact ⟨by decide,fun h => absurd h.1 (by decide)⟩

-- A reply of the flow statistics with no entries.
def statsReplyMessage : Bytes := [1,17,0,12,0,0,0,9,0,1,0,0]

theorem late_stats_reply_stops : Accepts statsReplyMessage ∧
    completedDaemon.info.xidTable.lookupXidEntry (be32 statsReplyMessage 4) = none ∧
    ¬ completedDaemon.Ignores (fun _ => 0) quietSurroundings statsReplyMessage := by
  have hvalid : Accepts statsReplyMessage := ⟨by simp,1,by decide +kernel⟩
  have htype : OfpType.ofCode (hostByte statsReplyMessage 1) = some .statsReply := by decide
  exact ⟨hvalid,rfl,Daemon.statsreply_not_ignored completed_reads rfl hvalid htype rfl rfl⟩

end Trema.SwitchManager
