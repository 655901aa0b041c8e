import Trema.EventForward.AtMostOnce

namespace Trema.EventForward

open Library
open OpenFlow (Exec abortIf)

-- Every switch of the list replied with success, and none timed out.
structure Completed (log : List Happening) (call : Nat) (txid : UInt32) : Prop where
  listed : ∃ dpids, .listed call txid (some dpids) ∈ log ∧ ∀ d ∈ dpids, .answered txid d .succeeded ∈ log
  clean : ∀ d, .timedOut txid d ∉ log

namespace Interface

variable {s s' : Interface} {log log' : List Happening} {param : AllParam} {tx tx' : AllSwTx} {u : UserData}
  {result : EfiResult} {info : TxInfo} {txid : UInt32} {call k : Nat}

structure TxHolds (s : Interface) (log : List Happening) (tx : AllSwTx) : Prop where
  result : tx.txResult = .succeeded
  managed : .managed tx.requestParam.call .succeeded ∈ log
  listed : ∃ dpids, .listed tx.requestParam.call tx.txid (some dpids) ∈ log ∧
    ∀ d ∈ dpids, d ∈ tx.waitingDpid ∨ .answered tx.txid d .succeeded ∈ log
  timers : ∀ t ∈ s.timers, t.txid = tx.txid → t.dpid ∈ tx.waitingDpid
  owner : ∀ k i, (k,.switch i) ∈ s.contexts → i.txid = tx.txid →
    ∀ t ∈ s.timers, t.txid = tx.txid → t.dpid = i.dpid → t.address = i.address
  clean : ∀ d, .timedOut tx.txid d ∉ log

structure Succeeded (s : Interface) (log : List Happening) (call : Nat) (txid : UInt32) : Prop where
  completed : Completed log call txid
  old : txid.toNat ≤ s.txid.toNat
  timers : ∀ t ∈ s.timers, t.txid ≠ txid

-- What a step may do around a transaction that it does not settle.
structure Spares (s : Interface) (log : List Happening) (s' : Interface) (log' : List Happening) (txid : UInt32) : Prop where
  timers : ∀ t ∈ s'.timers, t.txid = txid → t ∈ s.timers
  contexts : ∀ k i, (k,.switch i) ∈ s'.contexts → i.txid = txid → (k,.switch i) ∈ s.contexts
  kept : ∀ x ∈ log, x ∈ log'
  clean : ∀ d, .timedOut txid d ∈ log' → .timedOut txid d ∈ log

theorem TxHolds.later (h : TxHolds s log tx) (hs : Spares s log s' log' tx.txid) : TxHolds s' log' tx where
  result := h.result
  managed := hs.kept _ h.managed
  listed := by
    obtain ⟨dpids,hlisted,hall⟩ := h.listed
    exact ⟨dpids,hs.kept _ hlisted,fun d hd => (hall d hd).imp_right (hs.kept _)⟩
  timers := fun t ht hx => h.timers t (hs.timers t ht hx) hx
  owner := fun k i hi hx t ht htx => h.owner k i (hs.contexts k i hi hx) hx t (hs.timers t ht htx) htx
  clean := fun d hd => h.clean d (hs.clean d hd)

theorem Completed.later (h : Completed log call txid) (hs : Spares s log s' log' txid) : Completed log' call txid where
  listed := by
    obtain ⟨dpids,hlisted,hall⟩ := h.listed
    exact ⟨dpids,hs.kept _ hlisted,fun d hd => hs.kept _ (hall d hd)⟩
  clean := fun d hd => h.clean d (hs.clean d hd)

theorem Succeeded.later (h : Succeeded s log call txid) (hs : Spares s log s' log' txid)
    (htxid : s.txid.toNat ≤ s'.txid.toNat) : Succeeded s' log' call txid :=
  ⟨Completed.later h.completed hs,h.old.trans htxid,fun t ht hx => h.timers t (hs.timers t ht hx) hx⟩

def Reported (s : Interface) (log : List Happening) (call : Nat) : Prop :=
  .managed call .succeeded ∈ log ∧ ∃ txid, Succeeded s log call txid ∨ .listed call txid none ∈ log

structure Witnessed (s : Interface) (log : List Happening) : Prop where
  managed : ∀ k param, (k,.switchList param) ∈ s.contexts → .managed param.call .succeeded ∈ log
  tx : ∀ tx ∈ s.efiTxTable, TxHolds s log tx
  contexts : ∀ k i, (k,.switch i) ∈ s.contexts → i.txid.toNat ≤ s.txid.toNat
  timers : ∀ t ∈ s.timers, t.txid.toNat ≤ s.txid.toNat
  logged : ∀ x d, .timedOut x d ∈ log → x.toNat ≤ s.txid.toNat
  reported : ∀ call, (call,.succeeded) ∈ s.reports → Reported s log call

theorem Reported.later (h : Reported s log call) (hs : ∀ x, Succeeded s log call x → Spares s log s' log' x)
    (hlog : ∀ x ∈ log, x ∈ log') (htxid : s.txid.toNat ≤ s'.txid.toNat) : Reported s' log' call := by
  obtain ⟨hmanaged,x,hx⟩ := h
  exact ⟨hlog _ hmanaged,x,hx.imp (fun hsucceeded => hsucceeded.later (hs x hsucceeded) htxid) (hlog _)⟩

theorem spares_of_subset (htimers : ∀ t ∈ s'.timers, t ∈ s.timers)
    (hcontexts : ∀ k i, (k,.switch i) ∈ s'.contexts → (k,.switch i) ∈ s.contexts) (hlog : ∀ x ∈ log, x ∈ log')
    (hlogged : ∀ d, .timedOut txid d ∈ log' → .timedOut txid d ∈ log) : Spares s log s' log' txid :=
  ⟨fun t ht _ => htimers t ht,fun k i hi _ => hcontexts k i hi,hlog,hlogged⟩

-- A step that keeps the table and reports no success.
theorem Witnessed.spared (h : Witnessed s log) (hlog : ∀ x ∈ log, x ∈ log') (htxid : s'.txid = s.txid)
    (htable : ∀ tx ∈ s'.efiTxTable, tx ∈ s.efiTxTable)
    (hmanaged : ∀ k param, (k,.switchList param) ∈ s'.contexts → .managed param.call .succeeded ∈ log')
    (hcontexts : ∀ k i, (k,.switch i) ∈ s'.contexts → (k,.switch i) ∈ s.contexts) (htimers : ∀ t ∈ s'.timers, t ∈ s.timers)
    (hlogged : ∀ x d, .timedOut x d ∈ log' → .timedOut x d ∈ log)
    (hreports : ∀ call, (call,.succeeded) ∈ s'.reports → (call,.succeeded) ∈ s.reports) : Witnessed s' log' where
  managed := hmanaged
  tx := fun tx htx => (h.tx tx (htable tx htx)).later (spares_of_subset htimers hcontexts hlog (hlogged _))
  contexts := fun k i hi => by
    rw [htxid]
    exact h.contexts k i (hcontexts k i hi)
  timers := fun t ht => by
    rw [htxid]
    exact h.timers t (htimers t ht)
  logged := fun x d hd => by
    rw [htxid]
    exact h.logged x d (hlogged x d hd)
  reported := fun call hcall => (h.reported call (hreports call hcall)).later
    (fun x _ => spares_of_subset htimers hcontexts hlog (hlogged x)) hlog (by rw [htxid])

theorem mem_context (h : s.context k = some u) : (k,u) ∈ s.contexts := by
  obtain ⟨x,hfind,rfl⟩ := Option.map_eq_some_iff.mp h
  have hk : x.1 = k := by simpa using List.find?_some hfind
  rw [← hk]
  exact List.mem_of_find?_eq_some hfind

theorem mem_timer {address : Nat} (h : s.timer address = some info) : info ∈ s.timers := List.mem_of_find?_eq_some h

theorem mem_reports_respond (s : Interface) (param : AllParam) (result : EfiResult)
    (h : (call,.succeeded) ∈ (s.respond param result).reports) :
    (call,.succeeded) ∈ s.reports ∨ call = param.call ∧ result = .succeeded := by
  rw [respond_eq] at h
  rcases List.mem_append.mp h with h | h
  · exact .inl h
  · right
    cases hc : param.callback with
    | false => simp [hc] at h
    | true =>
      rw [hc,if_pos rfl,List.mem_singleton,Prod.mk.injEq] at h
      exact ⟨h.1,h.2.symm⟩

theorem reports_respond_failed (s : Interface) (param : AllParam)
    (h : (call,.succeeded) ∈ (s.respond param .failed).reports) : (call,.succeeded) ∈ s.reports := by
  rcases mem_reports_respond s param .failed h with h | ⟨_,h⟩
  · exact h
  · exact absurd h (by simp)

theorem Witnessed.start {sendOk : Bool} (h : Witnessed s log) : Witnessed (s.changeToAllSwitches param sendOk) log := by
  rw [changeToAllSwitches]
  split
  · have hadded : ∀ x ∈ s.contexts ++ [(s.requests,UserData.manager param)], x ∈ s.contexts ∨ x.2 = .manager param := by
      intro x hx
      rcases List.mem_append.mp hx with hx | hx
      · exact .inl hx
      · rw [List.mem_singleton.mp hx]
        exact .inr rfl
    refine h.spared (fun _ => id) rfl (fun _ => id) (fun k p hp => ?_) (fun k i hi => ?_) (fun _ => id) (fun _ _ => id)
      (fun _ => id)
    · rcases hadded _ hp with hp | hp
      · exact h.managed k p hp
      · exact absurd hp (by simp)
    · rcases hadded _ hi with hi | hi
      · exact hi
      · exact absurd hi (by simp)
  · exact h.spared (fun _ => id) rfl (fun _ => id) h.managed (fun _ _ => id) (fun _ => id) (fun _ _ => id) (fun _ => id)

theorem Witnessed.deleteContext (h : Witnessed s log) (hlog : ∀ x ∈ log, x ∈ log')
    (hlogged : ∀ x d, .timedOut x d ∈ log' → .timedOut x d ∈ log) : Witnessed (s.deleteContext k) log' :=
  h.spared hlog rfl (fun _ => id) (fun k p hp => hlog _ (h.managed k p (List.mem_of_mem_filter hp)))
    (fun _ _ => List.mem_of_mem_filter) (fun _ => id) hlogged (fun _ => id)

theorem Witnessed.manager {sendOk : Bool} (h : Witnessed s log) (hlogged : .managed param.call result ∈ log) :
    Witnessed (s.getSwitchListAfterSwmSucc result param sendOk) log := by
  rw [getSwitchListAfterSwmSucc]
  split
  · rename_i hsent
    have hadded : ∀ x ∈ s.contexts ++ [(s.requests,UserData.switchList param)],
        x ∈ s.contexts ∨ x.2 = .switchList param := by
      intro x hx
      rcases List.mem_append.mp hx with hx | hx
      · exact .inl hx
      · rw [List.mem_singleton.mp hx]
        exact .inr rfl
    refine h.spared (fun _ => id) rfl (fun _ => id) (fun k p hp => ?_) (fun k i hi => ?_) (fun _ => id) (fun _ _ => id)
      (fun _ => id)
    · rcases hadded _ hp with hp | hp
      · exact h.managed k p hp
      · rw [UserData.switchList.inj hp,← hsent.1]
        exact hlogged
    · rcases hadded _ hi with hi | hi
      · exact hi
      · exact absurd hi (by simp)
  · have hreports := fun c => @reports_respond_failed c s param
    rw [respond_eq] at hreports ⊢
    exact h.spared (fun _ => id) rfl (fun _ => id) h.managed (fun _ _ => id) (fun _ => id) (fun _ _ => id) hreports

theorem TxHolds.completed (h : TxHolds s log tx) (hnil : tx.waitingDpid = []) (hold : tx.txid.toNat ≤ s.txid.toNat) :
    Succeeded s log tx.requestParam.call tx.txid where
  completed := by
    obtain ⟨dpids,hlisted,hall⟩ := h.listed
    refine ⟨⟨dpids,hlisted,fun d hd => (hall d hd).resolve_left ?_⟩,h.clean⟩
    rw [hnil]
    exact List.not_mem_nil
  old := hold
  timers := fun t ht hx => by
    have hmem := h.timers t ht hx
    rw [hnil] at hmem
    exact List.not_mem_nil hmem

theorem TxHolds.answered (h : TxHolds s log tx) (hlogged : .answered tx.txid dpid result ∈ log)
    (hgone : ∀ t ∈ s.timers, t.txid = tx.txid → t.dpid ≠ dpid) (hr : (answeredTx tx result dpid).txResult = .succeeded) :
    TxHolds s log (answeredTx tx result dpid) where
  result := hr
  managed := h.managed
  listed := by
    obtain ⟨dpids,hlisted,hall⟩ := h.listed
    have hsucceeded : result = .succeeded := by
      cases result with
      | failed => exact absurd hr (by simp [answeredTx])
      | succeeded => rfl
    rw [hsucceeded] at hlogged
    refine ⟨dpids,hlisted,fun d hd => ?_⟩
    rcases hall d hd with hwaits | hanswered
    · by_cases hd : d = dpid
      · exact .inr (hd ▸ hlogged)
      · exact .inl ((List.mem_erase_of_ne hd).mpr hwaits)
    · exact .inr hanswered
  timers := fun t ht hx => (List.mem_erase_of_ne (hgone t ht hx)).mpr (h.timers t ht hx)
  owner := h.owner
  clean := h.clean

theorem Witnessed.settles (h : Witnessed s log) (hold : tx.txid.toNat ≤ s.txid.toNat)
    (htx : tx.txResult = .succeeded → TxHolds s log tx) (hs : Settles s tx s') : Witnessed s' log := by
  cases hs with
  | failed =>
    have hreports := fun c => @reports_respond_failed c (s.deleteTx tx.txid) tx.requestParam
    rw [respond_eq] at hreports ⊢
    exact h.spared (fun _ => id) rfl (fun _ => List.mem_of_mem_filter) h.managed (fun _ _ => id) (fun _ => id)
      (fun _ _ => id) hreports
  | succeeded hr hnil =>
    have hcompleted := (htx hr).completed hnil hold
    have hreports := fun c => @mem_reports_respond c (s.deleteTx tx.txid) tx.requestParam .succeeded
    rw [respond_eq] at hreports ⊢
    have hspares : ∀ x, Spares s log { s.deleteTx tx.txid with
        reports := s.reports ++ if tx.requestParam.callback then [(tx.requestParam.call,.succeeded)] else [] } log x :=
      fun x => spares_of_subset (fun _ => id) (fun _ _ => id) (fun _ => id) fun _ => id
    refine ⟨h.managed,fun x hx => ?_,h.contexts,h.timers,h.logged,fun call hcall => ?_⟩
    · exact (h.tx x (List.mem_of_mem_filter hx)).later (hspares _)
    · rcases hreports call hcall with hcall | ⟨hcall,_⟩
      · exact (h.reported call hcall).later (fun x _ => hspares x) (fun _ => id) le_rfl
      · rw [hcall]
        exact ⟨(htx hr).managed,tx.txid,.inl (hcompleted.later (hspares _) le_rfl)⟩
  | waits hr =>
    have hspares : ∀ x, Spares s log (s.putTx tx) log x :=
      fun x => spares_of_subset (fun _ => id) (fun _ _ => id) (fun _ => id) fun _ => id
    refine ⟨h.managed,fun x hx => ?_,h.contexts,h.timers,h.logged,fun call hcall => ?_⟩
    · rcases List.mem_cons.mp hx with rfl | hx
      · exact (htx hr).later (hspares _)
      · exact (h.tx x (List.mem_of_mem_filter hx)).later (hspares _)
    · exact (h.reported call hcall).later (fun x _ => hspares x) (fun _ => id) le_rfl

theorem Witnessed.handler (h : Witnessed s log) (hc : Counted s) (hi : (k,.switch info) ∈ s.contexts) :
    Witnessed ((s.deleteContext k).switchResponseHandler result info) (log ++ [.answered info.txid info.dpid result]) := by
  have hlog : ∀ x ∈ log, x ∈ log ++ [.answered info.txid info.dpid result] := fun x hx => List.mem_append_left _ hx
  have hcleared : Witnessed ((s.deleteContext k).deleteTimer info.address)
      (log ++ [.answered info.txid info.dpid result]) := by
    refine h.spared hlog rfl (fun _ => id) (fun j p hp => hlog _ (h.managed j p (List.mem_of_mem_filter hp)))
      (fun _ _ => List.mem_of_mem_filter) (fun _ => List.mem_of_mem_filter) (fun x d hd => ?_) (fun _ => id)
    rcases List.mem_append.mp hd with hd | hd
    · exact hd
    · exact absurd (List.mem_singleton.mp hd) (by simp)
  rcases switchResponseHandler_cases (s.deleteContext k) info result with
    ⟨_,hs⟩ | ⟨tx,hfound,_,hsettles⟩
  · rw [hs]
    exact hcleared
  · have htx : tx ∈ s.efiTxTable := mem_lookupTx hfound
    have htxid : tx.txid = info.txid := txid_lookupTx hfound
    rw [← htxid] at hcleared
    have hgone : ∀ t ∈ ((s.deleteContext k).deleteTimer info.address).timers, t.txid = tx.txid → t.dpid ≠ info.dpid := by
      intro t ht hx heq
      have haddress := (h.tx tx htx).owner k info hi htxid.symm t (List.mem_of_mem_filter ht) hx heq
      exact absurd haddress (by simpa using (List.mem_filter.mp ht).2)
    have hanswered : (answeredTx tx result info.dpid).txResult = .succeeded →
        TxHolds ((s.deleteContext k).deleteTimer info.address) (log ++ [.answered tx.txid info.dpid result]) (answeredTx tx result info.dpid) :=
      fun hr => (hcleared.tx tx htx).answered (by simp) hgone hr
    have hold : (answeredTx tx result info.dpid).txid.toNat ≤ s.txid.toNat := hc.txids tx htx
    rw [← htxid]
    exact hcleared.settles hold hanswered hsettles

theorem Witnessed.timeout {address : Nat} (h : Witnessed s log) (ht : s.timer address = some info) :
    Witnessed ((s.deleteTimer address).switchResponseTimeout info) (log ++ [.timedOut info.txid info.dpid]) := by
  have hlog : ∀ x ∈ log, x ∈ log ++ [.timedOut info.txid info.dpid] := fun x hx => List.mem_append_left _ hx
  have hlogged : ∀ x d, .timedOut x d ∈ log ++ [.timedOut info.txid info.dpid] → x ≠ info.txid → .timedOut x d ∈ log := by
    intro x d hd hne
    rcases List.mem_append.mp hd with hd | hd
    · exact hd
    · exact absurd (Happening.timedOut.inj (List.mem_singleton.mp hd)).1 hne
  -- No transaction of this id is left, and none has succeeded.
  have hrest : ∀ s' : Interface, s'.contexts = s.contexts → s'.txid = s.txid →
      (∀ t ∈ s'.timers, t ∈ s.timers) → (∀ tx ∈ s'.efiTxTable, tx ∈ s.efiTxTable ∧ tx.txid ≠ info.txid) →
      (∀ call, (call,.succeeded) ∈ s'.reports → (call,.succeeded) ∈ s.reports) →
      Witnessed s' (log ++ [.timedOut info.txid info.dpid]) := by
    intro s' hcontexts htxid htimers htable hreports
    have hsame : ∀ k i, (k,.switch i) ∈ s'.contexts → (k,.switch i) ∈ s.contexts := by
      intro k i hi
      rw [← hcontexts]
      exact hi
    have hspares : ∀ x, x ≠ info.txid → Spares s log s' (log ++ [.timedOut info.txid info.dpid]) x :=
      fun x hne => spares_of_subset htimers hsame hlog fun d hd => hlogged x d hd hne
    refine ⟨fun k p hp => ?_,fun tx htx => ?_,fun k i hi => ?_,fun t ht => ?_,fun x d hd => ?_,fun call hcall => ?_⟩
    · rw [hcontexts] at hp
      exact hlog _ (h.managed k p hp)
    · obtain ⟨hold,hne⟩ := htable tx htx
      exact (h.tx tx hold).later (hspares _ hne)
    · rw [htxid]
      exact h.contexts k i (hsame k i hi)
    · rw [htxid]
      exact h.timers t (htimers t ht)
    · rw [htxid]
      by_cases hx : x = info.txid
      · rw [hx]
        exact h.timers info (mem_timer ht)
      · exact h.logged x d (hlogged x d hd hx)
    · exact (h.reported call (hreports call hcall)).later
        (fun x hx => hspares x fun heq => hx.timers info (mem_timer ht) heq.symm) hlog (by rw [htxid])
  rcases switchResponseTimeout_cases (s.deleteTimer address) info with ⟨hnone,hs⟩ | ⟨tx,hfound,hsettles⟩
  · rw [hs]
    refine hrest _ rfl rfl (fun _ => List.mem_of_mem_filter) (fun tx htx => ⟨htx,?_⟩) (fun _ => id)
    simpa using List.find?_eq_none.mp hnone tx htx
  · have htx : tx ∈ s.efiTxTable := mem_lookupTx hfound
    have htxid : tx.txid = info.txid := txid_lookupTx hfound
    have hwaits := (h.tx tx htx).timers info (mem_timer ht) htxid.symm
    have hexpired : expiredTx tx info.dpid =
        { tx with waitingDpid := tx.waitingDpid.erase info.dpid, txResult := .failed } :=
      if_pos hwaits
    rw [hexpired] at hsettles
    generalize (s.deleteTimer address).switchResponseTimeout info = s' at hsettles ⊢
    cases hsettles with
    | failed =>
      have hreports := fun c => @reports_respond_failed c ((s.deleteTimer address).deleteTx tx.txid) tx.requestParam
      rw [respond_eq] at hreports ⊢
      refine hrest _ rfl rfl (fun _ => List.mem_of_mem_filter) (fun x hx => ⟨List.mem_of_mem_filter hx,?_⟩) hreports
      rw [← htxid]
      simpa using (List.mem_filter.mp hx).2
    | succeeded hr => exact absurd hr (by simp)
    | waits hr => exact absurd hr (by simp)

end Interface

end Trema.EventForward
