import Trema.EventForward.Successes

namespace Trema.EventForward

open Library
open Management (managementRequestFailed)
open OpenFlow (Exec abortIf)

namespace Interface

variable {s s' mid : Interface} {log log' : List Happening} {param : AllParam} {tx tx' : AllSwTx} {dpid : UInt64}
  {dpids : List UInt64} {send : Dispatch} {sends : Nat → Dispatch} {k : Nat} {r : ManagementReply}

-- While nothing has failed, each request of the transaction is awaited and has one timer.
structure Fan (s : Interface) (tx : AllSwTx) : Prop where
  timers : ∀ t ∈ s.timers, t.txid = tx.txid → t.dpid ∈ tx.waitingDpid
  contexts : ∀ k i, (k,.switch i) ∈ s.contexts → i.txid = tx.txid → i.dpid ∈ tx.waitingDpid
  owner : ∀ k i, (k,.switch i) ∈ s.contexts → i.txid = tx.txid →
    ∀ t ∈ s.timers, t.txid = tx.txid → t.dpid = i.dpid → t.address = i.address

theorem fan_one (h : Fan s tx) (hr : (s.dispatchOne param send dpid tx).1.txResult = .succeeded) :
    Fan (s.dispatchOne param send dpid tx).2 (s.dispatchOne param send dpid tx).1 ∧
      dpid ∈ (s.dispatchOne param send dpid tx).1.waitingDpid := by
  rw [dispatchOne] at hr ⊢
  split at hr
  · rename_i hwaits
    rw [if_pos hwaits]
    exact ⟨h,hwaits⟩
  · rename_i hnew
    rw [if_neg hnew]
    cases send with
    | sendFailed => exact absurd hr (by simp)
    | timerFailed => exact absurd hr (by simp)
    | dispatched =>
      refine ⟨⟨fun t ht hx => ?_,fun k i hi hx => ?_,fun k i hi hx t ht htx heq => ?_⟩,List.mem_cons_self⟩
      · rcases List.mem_append.mp ht with ht | ht
        · exact List.mem_cons_of_mem _ (h.timers t ht hx)
        · rw [List.mem_singleton.mp ht]
          exact List.mem_cons_self
      · rcases List.mem_append.mp hi with hi | hi
        · exact List.mem_cons_of_mem _ (h.contexts k i hi hx)
        · rw [UserData.switch.inj (Prod.mk.inj (List.mem_singleton.mp hi)).2]
          exact List.mem_cons_self
      · rcases List.mem_append.mp hi with hi | hi
        · rcases List.mem_append.mp ht with ht | ht
          · exact h.owner k i hi hx t ht htx heq
          · rw [List.mem_singleton.mp ht] at heq
            exact absurd (h.contexts k i hi hx) (heq ▸ hnew)
        · have hinfo := UserData.switch.inj (Prod.mk.inj (List.mem_singleton.mp hi)).2
          rcases List.mem_append.mp ht with ht | ht
          · rw [hinfo] at heq
            exact absurd (h.timers t ht htx) (heq ▸ hnew)
          · rw [List.mem_singleton.mp ht,hinfo]

theorem fan_all (param : AllParam) (sends : Nat → Dispatch) (i : Nat) (dpids : List UInt64)
    (h : tx.txResult = .succeeded → Fan s tx) (hr : (dispatchAll param sends i dpids tx s).1.txResult = .succeeded) :
    Fan (dispatchAll param sends i dpids tx s).2 (dispatchAll param sends i dpids tx s).1 ∧
      ∀ d ∈ dpids, d ∈ (dispatchAll param sends i dpids tx s).1.waitingDpid := by
  induction dpids generalizing i s tx with
  | nil => exact ⟨h hr,by simp⟩
  | cons dpid dpids ih =>
    have hd := dispatched_one s param (sends i) dpid tx
    have hrest := dispatched_all param sends (i + 1) dpids (s.dispatchOne param (sends i) dpid tx).1
      (s.dispatchOne param (sends i) dpid tx).2
    have hone : (s.dispatchOne param (sends i) dpid tx).1.txResult = .succeeded →
        Fan (s.dispatchOne param (sends i) dpid tx).2 (s.dispatchOne param (sends i) dpid tx).1 ∧
          dpid ∈ (s.dispatchOne param (sends i) dpid tx).1.waitingDpid := by
      intro hok
      refine fan_one (h ?_) hok
      cases htx : tx.txResult with
      | failed => exact absurd (hd.failed htx) (by simp [hok])
      | succeeded => rfl
    obtain ⟨hfan,hall⟩ := ih (i + 1) (fun hok => (hone hok).1) hr
    refine ⟨hfan,fun d hmem => ?_⟩
    rcases List.mem_cons.mp hmem with rfl | hmem
    · refine hrest.waiting _ (hone ?_).2
      cases hmid : (s.dispatchOne param (sends i) d tx).1.txResult with
      | failed => exact absurd (hrest.failed hmid) (by rw [dispatchAll] at hr; simp [hr])
      | succeeded => rfl
    · exact hall d hmem

theorem fan_opened (h : Witnessed s log) (hnew : ∀ x : UInt32, x.toNat ≤ s.txid.toNat → x ≠ s.txid + 1) :
    Fan (s.opened param) (s.openedTx param) where
  timers := fun t ht hx => absurd hx (hnew _ (h.timers t ht))
  contexts := fun k i hi hx => absurd hx (hnew _ (h.contexts k i hi))
  owner := fun k i hi hx => absurd hx (hnew _ (h.contexts k i hi))

theorem Concludes.timers (h : Concludes dpids mid tx s') : s'.timers = mid.timers := by
  cases h with
  | ends => rw [respond_eq]; rfl
  | waits => rfl

-- A new transaction's requests and timers are its own.
structure Grows (s s' : Interface) : Prop where
  counter : s'.txid = s.txid + 1
  contexts : ∀ x ∈ s'.contexts, x ∈ s.contexts ∨ ∃ i, x.2 = .switch i ∧ i.txid = s.txid + 1
  timers : ∀ t ∈ s'.timers, t ∈ s.timers ∨ t.txid = s.txid + 1

theorem Concludes.grows (hd : Dispatched (s.opened param) (s.openedTx param) mid tx) (h : Concludes dpids mid tx s') :
    Grows s s' where
  counter := h.same.txid.trans hd.counter
  contexts := fun x hx => by
    obtain ⟨sent,hsent,hswitch⟩ := hd.contexts
    rw [h.same.contexts,hsent] at hx
    exact (List.mem_append.mp hx).imp_right (hswitch x)
  timers := fun t ht => by
    obtain ⟨set,hset,htimer⟩ := hd.timers
    rw [h.timers,hset] at ht
    exact (List.mem_append.mp ht).imp_right (htimer t)

theorem Grows.spares (h : Grows s s') {x : UInt32} (hx : x ≠ s.txid + 1) (hlog : ∀ e ∈ log, e ∈ log')
    (hlogged : ∀ d, .timedOut x d ∈ log' → .timedOut x d ∈ log) : Spares s log s' log' x := by
  refine ⟨fun t ht heq => ?_,fun k i hi heq => ?_,hlog,hlogged⟩
  · refine (h.timers t ht).resolve_right fun hbad => hx ?_
    rw [← heq,hbad]
  · refine (h.contexts _ hi).resolve_right fun hbad => ?_
    obtain ⟨j,hj,hbad⟩ := hbad
    refine hx ?_
    rw [← heq,UserData.switch.inj hj,hbad]

theorem Witnessed.grows (h : Witnessed s log) (hg : Grows s s') (hnext : (s.txid + 1).toNat = s.txid.toNat + 1)
    (hlog : ∀ e ∈ log, e ∈ log') (hlogged : ∀ x d, .timedOut x d ∈ log' → .timedOut x d ∈ log)
    (htx : ∀ x ∈ s'.efiTxTable, TxHolds s' log' x)
    (hreported : ∀ call, (call,.succeeded) ∈ s'.reports → Reported s' log' call) :
    Witnessed s' log' where
  managed := fun k p hp => by
    refine hlog _ (h.managed k p ((hg.contexts _ hp).resolve_right fun hbad => ?_))
    obtain ⟨i,hi,_⟩ := hbad
    exact absurd hi (by simp)
  tx := htx
  contexts := fun k i hi => by
    rw [hg.counter,hnext]
    rcases hg.contexts _ hi with hi | ⟨j,hj,hx⟩
    · exact (h.contexts k i hi).trans (Nat.le_succ _)
    · rw [UserData.switch.inj hj,hx,hnext]
  timers := fun t ht => by
    rw [hg.counter,hnext]
    rcases hg.timers t ht with ht | hx
    · exact (h.timers t ht).trans (Nat.le_succ _)
    · rw [hx,hnext]
  logged := fun x d hd => by
    rw [hg.counter,hnext]
    exact (h.logged x d (hlogged x d hd)).trans (Nat.le_succ _)
  reported := hreported

theorem Fan.holds (hfan : Fan mid tx) (hr : tx.txResult = .succeeded) (hdpids : ∀ d ∈ dpids, d ∈ tx.waitingDpid)
    (hmanaged : .managed tx.requestParam.call .succeeded ∈ log)
    (hlisted : .listed tx.requestParam.call tx.txid (some dpids) ∈ log)
    (hclean : ∀ d, .timedOut tx.txid d ∉ log) : TxHolds (mid.putTx tx) log tx :=
  ⟨hr,hmanaged,⟨dpids,hlisted,fun d hd => .inl (hdpids d hd)⟩,hfan.timers,hfan.owner,hclean⟩

-- A success without any switch to wait for: the list was empty, or the request for it failed.
theorem reported_without_switches {list : Option (List UInt64)} {c : Nat} {txid : UInt32} (hnil : list.getD [] = [])
    (hmanaged : .managed c .succeeded ∈ log) (hlisted : .listed c txid list ∈ log) (hclean : ∀ d, .timedOut txid d ∉ log)
    (hold : txid.toNat ≤ s.txid.toNat) (htimers : ∀ t ∈ s.timers, t.txid ≠ txid) : Reported s log c := by
  refine ⟨hmanaged,txid,?_⟩
  cases list with
  | none => exact .inr hlisted
  | some dpids =>
    have hempty : dpids = [] := hnil
    refine .inl ⟨⟨⟨dpids,hlisted,?_⟩,hclean⟩,hold,htimers⟩
    rw [hempty]
    simp

theorem Witnessed.dispatch (h : Witnessed s log) (hc : Counted s) (hnext : (s.txid + 1).toNat = s.txid.toNat + 1)
    (hlookup : s.lookupTx (s.txid + 1) = none) (hmanaged : .managed param.call .succeeded ∈ log)
    (hok : s.dispatchToAllSwitch (r.switchList.getD []) param sends = .ok s') :
    Witnessed s' (log ++ [.listed param.call (s.txid + 1) r.switchList]) := by
  have hnew : ∀ x : UInt32, x.toNat ≤ s.txid.toNat → x ≠ s.txid + 1 := by
    rintro x hx rfl
    omega
  obtain ⟨tx,mid,s'',hall,hd,hrun,hconcludes⟩ := dispatchToAllSwitch_fresh (r.switchList.getD []) param sends
    hlookup
  rw [hok] at hrun
  rw [← Except.ok.inj hrun] at hconcludes
  have hg := hconcludes.grows hd
  have htxid : tx.txid = s.txid + 1 := hd.txid
  have hparam : tx.requestParam = param := hd.requestParam
  have hreports : mid.reports = s.reports := hd.reports
  have hlog : ∀ e ∈ log, e ∈ log ++ [.listed param.call (s.txid + 1) r.switchList] := fun e he => List.mem_append_left _ he
  have hlogged : ∀ x d, .timedOut x d ∈ log ++ [.listed param.call (s.txid + 1) r.switchList] → .timedOut x d ∈ log := by
    intro x d hd
    rcases List.mem_append.mp hd with hd | hd
    · exact hd
    · exact absurd (List.mem_singleton.mp hd) (by simp)
  have hlisted : .listed param.call (s.txid + 1) r.switchList ∈ log ++ [.listed param.call (s.txid + 1) r.switchList] := by
    simp
  have hclean : ∀ d, .timedOut (s.txid + 1) d ∉ log ++ [.listed param.call (s.txid + 1) r.switchList] :=
    fun d hd => hnew _ (h.logged _ d (hlogged _ d hd)) rfl
  have hkept : ∀ call, (call,.succeeded) ∈ s.reports →
      Reported s' (log ++ [.listed param.call (s.txid + 1) r.switchList]) call := by
    refine fun call hcall => (h.reported call hcall).later
      (fun x hx => hg.spares (hnew x hx.old) hlog fun d => hlogged x d) hlog ?_
    rw [hg.counter,hnext]
    exact Nat.le_succ _
  have hrest : ∀ x ∈ (mid.deleteTx tx.txid).efiTxTable,
      TxHolds s' (log ++ [.listed param.call (s.txid + 1) r.switchList]) x := by
    intro x hx
    rw [deleteTx_opened hd] at hx
    have hx : x ∈ s.efiTxTable := List.mem_of_mem_filter hx
    exact (h.tx x hx).later (hg.spares (hnew _ (hc.txids x hx)) hlog fun d => hlogged _ d)
  refine h.grows hg hnext hlog hlogged ?_ ?_
  · intro x hx
    cases hconcludes with
    | ends =>
      rw [respond_eq] at hx
      exact hrest x hx
    | waits hne hr =>
      rcases List.mem_cons.mp hx with rfl | hx
      · obtain ⟨hfan,hdpids⟩ := fan_all param sends 0 (r.switchList.getD [])
          (fun _ => fan_opened h hnew) (by rw [hall]; exact hr)
        rw [hall] at hfan hdpids
        have hsome : r.switchList = some (r.switchList.getD []) := by
          cases hlist : r.switchList with
          | none => exact absurd (by rw [hlist]; rfl) hne
          | some dpids => rfl
        refine hfan.holds hr hdpids ?_ ?_ ?_
        · rw [hparam]
          exact List.mem_append_left _ hmanaged
        · rw [hparam,htxid,← hsome]
          exact hlisted
        · rw [htxid]
          exact hclean
      · exact hrest x hx
  · intro call hcall
    cases hconcludes with
    | waits =>
      rw [← hreports] at hkept
      exact hkept call hcall
    | ends hends =>
      rcases mem_reports_respond _ _ _ hcall with hcall | ⟨hcall,hr⟩
      · rw [← hreports] at hkept
        exact hkept call hcall
      · have hnil : r.switchList.getD [] = [] := hends.resolve_right (by simp [hr])
        rw [hnil] at hall
        have hmid : mid = s.opened param := (congrArg Prod.snd hall).symm
        rw [hcall]
        rw [hparam] at hg ⊢
        refine reported_without_switches hnil (List.mem_append_left _ hmanaged) hlisted hclean ?_ fun t ht => ?_
        · rw [hg.counter]
        · rw [respond_eq,hmid] at ht
          exact hnew _ (h.timers t ht)

theorem Witnessed.step (h : Witnessed s log) (hc : Counted s) (e : Event) (hcalls : s.calls < 4294967296)
    (hok : s.step e = .ok s') : Witnessed s' (log ++ happenings s e) := by
  cases e with
  | start add type serviceName callback sendOk =>
    have hnothing : happenings s (.start add type serviceName callback sendOk) = [] := rfl
    rw [← Except.ok.inj hok,hnothing,List.append_nil]
    exact h.start
  | timeout address =>
    rw [Interface.step] at hok
    rw [happenings]
    cases ht : s.timer address with
    | none =>
      rw [ht] at hok
      rw [← Except.ok.inj hok,List.append_nil]
      exact h
    | some info =>
      rw [ht] at hok
      rw [← Except.ok.inj hok]
      exact h.timeout ht
  | expire k =>
    have hnothing : happenings s (.expire k) = [] := rfl
    rw [← Except.ok.inj hok,hnothing,List.append_nil]
    exact h.deleteContext (fun _ => id) fun _ _ => id
  | reply k r sendOk sends =>
    rw [Interface.step] at hok
    rw [happenings]
    cases hk : s.context k with
    | none =>
      rw [hk] at hok
      rw [← Except.ok.inj hok,List.append_nil]
      exact h
    | some u =>
      rw [hk] at hok
      have hmem := mem_context hk
      cases u with
      | manager param =>
        rw [← Except.ok.inj hok]
        refine (h.deleteContext (fun e he => List.mem_append_left _ he) fun x d hd => ?_).manager (by simp)
        exact (List.mem_append.mp hd).resolve_right (by simp)
      | switchList param =>
        have hpending := pending_context hk
        have hbudget := hc.budget
        simp only [UserData.call,Option.isSome_some,here,if_true] at hpending
        have hbound : s.txid.toNat + 1 < 4294967296 := by omega
        have hnext : (s.txid + 1).toNat = s.txid.toNat + 1 := by
          rw [UInt32.toNat_add]
          exact Nat.mod_eq_of_lt hbound
        exact (h.deleteContext (fun _ => id) fun _ _ => id).dispatch hc.deleteContext hnext
          (hc.deleteContext.lookup hbound) (h.managed k param hmem) hok
      | switch info =>
        rw [← Except.ok.inj hok]
        exact h.handler hc hmem

theorem run_reported (events : List Event) (hc : Counted s) (h : Witnessed s log)
    (hstarts : s.calls + events.countP Event.isStart < 4294967296) :
    ∃ s' log', runEvents events s log = .ok (s',log') ∧ Counted s' ∧ Witnessed s' log' := by
  induction events generalizing s log with
  | nil => exact ⟨s,log,rfl,hc,h⟩
  | cons e events ih =>
    rw [List.countP_cons] at hstarts
    obtain ⟨next,hstep,hcounted,hcalls⟩ := hc.step e (by omega)
    have hnext : next.calls + events.countP Event.isStart < 4294967296 := by
      rw [hcalls,here]
      omega
    obtain ⟨s',log',hrun,hend⟩ := ih hcounted (h.step hc e (by omega) hstep) hnext
    refine ⟨s',log',?_,hend⟩
    rw [runEvents,hstep,ok_bind,hrun]

theorem counted_empty : Counted {} := ⟨fun _ => Nat.zero_le _,fun _ _ => rfl,le_rfl,by simp⟩

theorem witnessed_empty : Witnessed {} [] := ⟨by simp,by simp,by simp,by simp,by simp,by simp⟩

end Interface

open Interface

-- A request for the list that failed counts as an empty list.
theorem all_switches_reported (events : List Event) (hstarts : events.countP Event.isStart < 4294967296) :
    ∃ s log, runEvents events {} [] = .ok (s,log) ∧ (∀ call, s.reports.countP (fun x => x.1 = call) ≤ 1) ∧
      ∀ call, (call,.succeeded) ∈ s.reports → (∀ txid, .listed call txid none ∉ log) →
        .managed call .succeeded ∈ log ∧ ∃ txid, Completed log call txid := by
  obtain ⟨s,log,hrun,hc,h⟩ := run_reported events counted_empty witnessed_empty (by simpa using hstarts)
  refine ⟨s,log,hrun,fun call => (Nat.le_add_left _ _).trans (hc.tokens call),fun call hcall hlisted => ?_⟩
  obtain ⟨hmanaged,txid,hsucceeded | hnone⟩ := h.reported call hcall
  · exact ⟨hmanaged,txid,hsucceeded.completed⟩
  · exact absurd hnone (hlisted txid)

theorem all_switches_reported_answered : ∃ s log,
    runEvents [.start true .packetIn firstApp true true,.reply 0 ⟨0,0,[]⟩ true fun _ => .dispatched,
      .reply 1 ⟨0,0,[5]⟩ true fun _ => .dispatched,.reply 2 ⟨0,0,[]⟩ true fun _ => .dispatched] {} [] = .ok (s,log) ∧
      (∀ call, s.reports.countP (fun x => x.1 = call) ≤ 1) ∧
        ∀ call, (call,.succeeded) ∈ s.reports → (∀ txid, .listed call txid none ∉ log) →
          .managed call .succeeded ∈ log ∧ ∃ txid, Completed log call txid :=
  all_switches_reported _ (by decide)

def failedListRun : List Event :=
  [.start true .packetIn firstApp true true,.reply 0 ⟨0,0,[]⟩ true fun _ => .dispatched,
    .reply 1 ⟨managementRequestFailed,0,[]⟩ true fun _ => .dispatched]

theorem failedListRun_ends : ∃ s, runEvents failedListRun {} [] = .ok (s,[.managed 0 .succeeded,.listed 0 1 none]) ∧
    s.reports = [(0,.succeeded)] :=
  ⟨_,rfl,rfl⟩

theorem failed_list_reported : ¬ ∀ events : List Event, events.countP Event.isStart < 4294967296 →
    ∃ s log, runEvents events {} [] = .ok (s,log) ∧ ∀ call, (call,.succeeded) ∈ s.reports →
      .managed call .succeeded ∈ log ∧ ∃ txid, Completed log call txid := by
  intro hclaim
  obtain ⟨s,log,hrun,hreported⟩ := hclaim failedListRun (by decide)
  obtain ⟨s',hends,hreports⟩ := failedListRun_ends
  rw [hends] at hrun
  obtain ⟨rfl,rfl⟩ := Prod.mk.inj (Except.ok.inj hrun)
  rw [hreports] at hreported
  obtain ⟨_,txid,hcompleted⟩ := hreported 0 (by simp)
  obtain ⟨dpids,hlisted,_⟩ := hcompleted.listed
  exact absurd hlisted (by simp)

end Trema.EventForward
