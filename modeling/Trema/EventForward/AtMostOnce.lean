import Trema.EventForward.Outcomes

namespace Trema.EventForward

open Library
open OpenFlow (Exec abortIf)

def UserData.call : UserData → Option Nat
  | .manager param => some param.call
  | .switchList param => some param.call
  | .switch _ => none

def here (p : Prop) [Decidable p] : Nat := if p then 1 else 0

section Counting

variable {α : Type} {q : α → Bool}

theorem countP_append_one (l : List α) (a : α) : (l ++ [a]).countP q = l.countP q + here (q a = true) := by
  rw [List.countP_append,List.countP_singleton,here]

theorem countP_filter_le (l : List α) (p : α → Bool) : (l.filter p).countP q ≤ l.countP q :=
  List.Sublist.countP_le List.filter_sublist

theorem countP_filter_found {l : List α} {p : α → Bool} {a : α} (h : l.find? p = some a) :
    (l.filter fun x => !p x).countP q + here (q a = true) ≤ l.countP q := by
  induction l with
  | nil => exact absurd h (by simp)
  | cons x l ih =>
    by_cases hx : p x = true
    · have ha : x = a := by simpa [hx] using h
      have hle := countP_filter_le (q := q) l fun y => !p y
      rw [List.filter_cons_of_neg (by simp [hx]),List.countP_cons,ha,here]
      omega
    · rw [List.find?_cons_of_neg hx] at h
      have hle := ih h
      rw [List.filter_cons_of_pos (by simpa using hx),List.countP_cons,List.countP_cons]
      omega

end Counting

namespace Interface

variable {s : Interface} {c k : Nat} {param : AllParam} {tx : AllSwTx} {u : UserData} {result : EfiResult}
  {txid : UInt32}

-- What a call still has: its request to the manager or for the list, its transaction, or its report.
def tokens (s : Interface) (c : Nat) : Nat :=
  s.contexts.countP (fun x => x.2.call = some c) + s.efiTxTable.countP (fun tx => tx.requestParam.call = c) +
    s.reports.countP (fun x => x.1 = c)

theorem tokens_request (message : SentRequest) : (s.request u message).tokens c = s.tokens c + here (u.call = some c) := by
  simp only [tokens,request,countP_append_one,decide_eq_true_eq]
  omega

theorem tokens_respond : (s.respond param result).tokens c ≤ s.tokens c + here (param.call = c) := by
  rw [respond]
  split
  · simp only [tokens,countP_append_one,decide_eq_true_eq]
    omega
  · omega

theorem tokens_deleteContext : (s.deleteContext k).tokens c ≤ s.tokens c := by
  have hle := countP_filter_le (q := fun x : Nat × UserData => x.2.call = some c) s.contexts (·.1 ≠ k)
  simp only [tokens,deleteContext]
  omega

theorem tokens_context (h : s.context k = some u) : (s.deleteContext k).tokens c + here (u.call = some c) ≤ s.tokens c := by
  obtain ⟨x,hfind,rfl⟩ := Option.map_eq_some_iff.mp h
  have hle := countP_filter_found (q := fun x : Nat × UserData => x.2.call = some c) hfind
  simp only [decide_eq_true_eq] at hle
  simp only [tokens,deleteContext,decide_not]
  omega

theorem tokens_deleteTx : (s.deleteTx txid).tokens c ≤ s.tokens c := by
  have hle := countP_filter_le (q := fun tx : AllSwTx => tx.requestParam.call = c) s.efiTxTable (·.txid ≠ txid)
  simp only [tokens,deleteTx]
  omega

theorem tokens_lookupTx (h : s.lookupTx txid = some tx) :
    (s.deleteTx txid).tokens c + here (tx.requestParam.call = c) ≤ s.tokens c := by
  have hle := countP_filter_found (q := fun tx : AllSwTx => tx.requestParam.call = c) h
  simp only [decide_eq_true_eq] at hle
  simp only [tokens,deleteTx,decide_not]
  omega

theorem tokens_putTx : (s.putTx tx).tokens c = (s.deleteTx tx.txid).tokens c + here (tx.requestParam.call = c) := by
  simp only [tokens,putTx,deleteTx,List.countP_cons,decide_eq_true_eq,here]
  omega

theorem tokens_settles {tx' : AllSwTx} {s' : Interface} (hfound : s.lookupTx txid = some tx) (htxid : tx'.txid = tx.txid)
    (hparam : tx'.requestParam = tx.requestParam) (h : Settles s tx' s') : s'.tokens c ≤ s.tokens c := by
  have hle := tokens_lookupTx (c := c) hfound
  rw [← txid_lookupTx hfound,← htxid,← hparam] at hle
  cases h with
  | failed => exact tokens_respond.trans hle
  | succeeded => exact tokens_respond.trans hle
  | waits =>
    rw [tokens_putTx]
    exact hle

theorem tokens_afterManager {sendOk : Bool} : (s.getSwitchListAfterSwmSucc result param sendOk).tokens c ≤
    s.tokens c + here (param.call = c) := by
  rw [getSwitchListAfterSwmSucc]
  split
  · rw [tokens_request]
    simp only [UserData.call,Option.some.injEq]
    exact le_rfl
  · exact tokens_respond

theorem tokens_dispatched {tx' : AllSwTx} {s' : Interface} (h : Dispatched s tx s' tx') (txid : UInt32) :
    (s'.deleteTx txid).tokens c = (s.deleteTx txid).tokens c := by
  obtain ⟨added,hadded,hswitch⟩ := h.contexts
  have hzero : added.countP (fun x => x.2.call = some c) = 0 := by
    refine List.countP_eq_zero.mpr fun x hx => ?_
    obtain ⟨info,hinfo,_⟩ := hswitch x hx
    rw [hinfo]
    simp [UserData.call]
  simp only [tokens,deleteTx,h.table,h.reports,hadded,List.countP_append,hzero,Nat.add_zero]

theorem tokens_concludes {dpids : List UInt64} {mid s' : Interface} {tx' : AllSwTx}
    (hd : Dispatched (s.opened param) (s.openedTx param) mid tx') (h : Concludes dpids mid tx' s') :
    s'.tokens c ≤ s.tokens c + here (param.call = c) := by
  have hmid : (mid.deleteTx tx'.txid).tokens c ≤ s.tokens c := by
    rw [tokens_dispatched hd,hd.txid,opened,deleteTx_putTx]
    exact tokens_deleteTx
  have hparam : tx'.requestParam = param := hd.requestParam
  cases h with
  | ends =>
    rw [← hparam]
    exact tokens_respond.trans (Nat.add_le_add_right hmid _)
  | waits =>
    rw [tokens_putTx,hparam]
    exact Nat.add_le_add_right hmid _

-- How many requests of calls are under way before their transaction.
def pending (s : Interface) : Nat := s.contexts.countP fun x => x.2.call.isSome

structure Counted (s : Interface) : Prop where
  tokens : ∀ c, s.tokens c ≤ 1
  fresh : ∀ c, s.calls ≤ c → s.tokens c = 0
  budget : s.txid.toNat + s.pending ≤ s.calls
  txids : ∀ tx ∈ s.efiTxTable, tx.txid.toNat ≤ s.txid.toNat

theorem pending_context (h : s.context k = some u) :
    (s.deleteContext k).pending + here (u.call.isSome = true) ≤ s.pending := by
  obtain ⟨x,hfind,rfl⟩ := Option.map_eq_some_iff.mp h
  have hle := countP_filter_found (q := fun x : Nat × UserData => x.2.call.isSome) hfind
  simp only [pending,deleteContext,decide_not]
  exact hle

theorem pending_deleteContext : (s.deleteContext k).pending ≤ s.pending := countP_filter_le _ _

theorem pending_request (message : SentRequest) :
    (s.request u message).pending = s.pending + here (u.call.isSome = true) := by
  simp only [pending,request,countP_append_one]

theorem pending_dispatched {tx' : AllSwTx} {s' : Interface} (h : Dispatched s tx s' tx') : s'.pending = s.pending := by
  obtain ⟨added,hadded,hswitch⟩ := h.contexts
  have hzero : added.countP (fun x => x.2.call.isSome) = 0 := by
    refine List.countP_eq_zero.mpr fun x hx => ?_
    obtain ⟨info,hinfo,_⟩ := hswitch x hx
    rw [hinfo]
    simp [UserData.call]
  simp only [pending,hadded,List.countP_append,hzero,Nat.add_zero]

theorem respond_eq : s.respond param result =
    { s with reports := s.reports ++ if param.callback then [(param.call,result)] else [] } := by
  rw [respond]
  split <;> simp [*]

-- What a response or a timeout leaves alone.
structure SameRequests (s s' : Interface) : Prop where
  contexts : s'.contexts = s.contexts
  calls : s'.calls = s.calls
  txid : s'.txid = s.txid

theorem Settles.same {s' : Interface} (h : Settles s tx s') : SameRequests s s' := by
  cases h with
  | failed => rw [respond_eq]; exact ⟨rfl,rfl,rfl⟩
  | succeeded => rw [respond_eq]; exact ⟨rfl,rfl,rfl⟩
  | waits => exact ⟨rfl,rfl,rfl⟩

theorem Settles.table {s' : Interface} (h : Settles s tx s') : ∀ x ∈ s'.efiTxTable, x = tx ∨ x ∈ s.efiTxTable := by
  intro x hx
  cases h with
  | failed =>
    rw [respond_eq] at hx
    exact .inr (List.mem_of_mem_filter hx)
  | succeeded =>
    rw [respond_eq] at hx
    exact .inr (List.mem_of_mem_filter hx)
  | waits => exact (List.mem_cons.mp hx).imp_right List.mem_of_mem_filter

theorem Counted.lookup (h : Counted s) (hbound : s.txid.toNat + 1 < 4294967296) : s.lookupTx (s.txid + 1) = none := by
  have hnext : (s.txid + 1).toNat = s.txid.toNat + 1 := by
    rw [UInt32.toNat_add]
    exact Nat.mod_eq_of_lt hbound
  refine List.find?_eq_none.mpr fun tx htx => ?_
  have hle := h.txids tx htx
  simp only [decide_eq_true_eq]
  rintro heq
  rw [heq,hnext] at hle
  omega

theorem Counted.same {s' : Interface} (h : Counted s) (hs : SameRequests s s') (htokens : ∀ c, s'.tokens c ≤ s.tokens c)
    (htxids : ∀ tx ∈ s'.efiTxTable, tx.txid.toNat ≤ s.txid.toNat) : Counted s' where
  tokens := fun c => (htokens c).trans (h.tokens c)
  fresh := fun c hc => Nat.le_zero.mp ((htokens c).trans (h.fresh c (hs.calls ▸ hc)).le)
  budget := by
    rw [pending,hs.contexts,hs.calls,hs.txid]
    exact h.budget
  txids := by
    rw [hs.txid]
    exact htxids

theorem Counted.settles {tx' : AllSwTx} {s' : Interface} (h : Counted s) (hfound : s.lookupTx txid = some tx)
    (htxid : tx'.txid = tx.txid) (hparam : tx'.requestParam = tx.requestParam) (hs : Settles s tx' s') : Counted s' := by
  refine h.same hs.same (fun c => tokens_settles hfound htxid hparam hs) fun x hx => ?_
  rcases hs.table x hx with rfl | hx
  · rw [htxid]
    exact h.txids tx (mem_lookupTx hfound)
  · exact h.txids x hx

theorem Counted.start {sendOk : Bool} (h : Counted s) (hcall : param.call = s.calls) :
    Counted (s.changeToAllSwitches param sendOk) := by
  have hbudget := h.budget
  rw [changeToAllSwitches]
  split
  · have htokens : ∀ c, Interface.tokens { s with calls := s.calls + 1 } c = s.tokens c := fun _ => rfl
    have hpending : Interface.pending { s with calls := s.calls + 1 } = s.pending := rfl
    refine ⟨fun c => ?_,fun c hc => ?_,?_,h.txids⟩
    · rw [tokens_request,htokens,UserData.call,here]
      split
      · rename_i heq
        rw [h.fresh c (by rw [← Option.some.inj heq,hcall])]
      · exact h.tokens c
    · have hlt : s.calls + 1 ≤ c := hc
      rw [tokens_request,htokens,h.fresh c (by omega),UserData.call,here,if_neg]
      rw [Option.some.injEq]
      omega
    · rw [pending_request,hpending]
      simp only [UserData.call,Option.isSome_some,here,if_true,request]
      omega
  · exact ⟨h.tokens,fun c hc => h.fresh c (Nat.le_of_succ_le hc),hbudget.trans (Nat.le_succ _),h.txids⟩

theorem Counted.deleteContext (h : Counted s) : Counted (s.deleteContext k) where
  tokens := fun _ => tokens_deleteContext.trans (h.tokens _)
  fresh := fun c hc => Nat.le_zero.mp (tokens_deleteContext.trans (h.fresh c hc).le)
  budget := (Nat.add_le_add_left pending_deleteContext _).trans h.budget
  txids := h.txids

theorem Counted.manager {sendOk : Bool} (h : Counted s) (hk : s.context k = some (.manager param)) :
    Counted ((s.deleteContext k).getSwitchListAfterSwmSucc result param sendOk) := by
  have htokens : ∀ c, ((s.deleteContext k).getSwitchListAfterSwmSucc result param sendOk).tokens c ≤ s.tokens c := by
    intro c
    refine tokens_afterManager.trans ((tokens_context hk).trans' ?_)
    simp only [UserData.call,Option.some.injEq]
    exact le_rfl
  have hpending := pending_context hk
  have hbudget := h.budget
  refine ⟨fun c => (htokens c).trans (h.tokens c),fun c hc => ?_,?_,?_⟩
  · refine Nat.le_zero.mp ((htokens c).trans (h.fresh c ?_).le)
    rw [getSwitchListAfterSwmSucc,respond_eq] at hc
    split at hc
    · exact hc
    · exact hc
  · simp only [UserData.call,Option.isSome_some,here,if_true] at hpending
    rw [getSwitchListAfterSwmSucc,respond_eq]
    split
    · rw [pending_request]
      simp only [UserData.call,Option.isSome_some,here,if_true,request]
      exact (Nat.add_le_add_left hpending _).trans hbudget
    · exact (Nat.add_le_add_left (Nat.le_of_succ_le hpending) _).trans hbudget
  · rw [getSwitchListAfterSwmSucc,respond_eq]
    split
    · exact h.txids
    · exact h.txids

theorem Concludes.same {dpids : List UInt64} {mid s' : Interface} (h : Concludes dpids mid tx s') : SameRequests mid s' := by
  cases h with
  | ends => rw [respond_eq]; exact ⟨rfl,rfl,rfl⟩
  | waits => exact ⟨rfl,rfl,rfl⟩

theorem Concludes.table {dpids : List UInt64} {mid s' : Interface} (h : Concludes dpids mid tx s') :
    ∀ x ∈ s'.efiTxTable, x = tx ∨ x ∈ (mid.deleteTx tx.txid).efiTxTable := by
  intro x hx
  cases h with
  | ends =>
    rw [respond_eq] at hx
    exact .inr hx
  | waits => exact List.mem_cons.mp hx

theorem deleteTx_opened {mid : Interface} {tx' : AllSwTx} (hd : Dispatched (s.opened param) (s.openedTx param) mid tx') :
    (mid.deleteTx tx'.txid).efiTxTable = (s.deleteTx tx'.txid).efiTxTable := by
  have htxid : tx'.txid = (s.openedTx param).txid := hd.txid
  simp only [deleteTx,hd.table,htxid]
  exact congrArg efiTxTable (@deleteTx_putTx { s with txid := s.txid + 1 } (s.openedTx param))

theorem Counted.switchList {dpids : List UInt64} {sends : Nat → Dispatch} (h : Counted s)
    (hk : s.context k = some (.switchList param)) (hcalls : s.calls < 4294967296) :
    ∃ s', (s.deleteContext k).dispatchToAllSwitch dpids param sends = .ok s' ∧ Counted s' ∧ s'.calls = s.calls := by
  have hpending := pending_context hk
  simp only [UserData.call,Option.isSome_some,here,if_true] at hpending
  have hbudget := h.budget
  have hbound : s.txid.toNat + 1 < 4294967296 := by omega
  have hnext : (s.txid + 1).toNat = s.txid.toNat + 1 := by
    rw [UInt32.toNat_add]
    exact Nat.mod_eq_of_lt hbound
  have htokens : ∀ c, (s.deleteContext k).tokens c + here (param.call = c) ≤ s.tokens c := by
    intro c
    refine (tokens_context hk).trans' ?_
    simp only [UserData.call,Option.some.injEq]
    exact le_rfl
  obtain ⟨tx',mid,s',_,hd,hdispatch,hconcludes⟩ := dispatchToAllSwitch_fresh dpids param sends
    (h.deleteContext.lookup hbound)
  have hsame := hconcludes.same
  have hcalls' : s'.calls = s.calls := hsame.calls.trans hd.calls
  have htxid : s'.txid = s.txid + 1 := hsame.txid.trans hd.counter
  have hle : ∀ c, s'.tokens c ≤ s.tokens c := fun c => (tokens_concludes hd hconcludes).trans (htokens c)
  refine ⟨s',hdispatch,⟨fun c => (hle c).trans (h.tokens c),fun c hc => ?_,?_,fun x hx => ?_⟩,hcalls'⟩
  · exact Nat.le_zero.mp ((hle c).trans (h.fresh c (hcalls' ▸ hc)).le)
  · have hsame' : s'.pending = (s.deleteContext k).pending := by
      rw [pending,hsame.contexts,← pending,pending_dispatched hd]
      rfl
    rw [htxid,hnext,hsame',hcalls']
    omega
  · rw [htxid,hnext]
    rcases hconcludes.table x hx with rfl | hx
    · have hx : x.txid = s.txid + 1 := hd.txid
      rw [hx,hnext]
    · rw [deleteTx_opened hd] at hx
      exact (h.txids x (List.mem_of_mem_filter hx)).trans (Nat.le_succ _)

theorem calls_afterManager {sendOk : Bool} : (s.getSwitchListAfterSwmSucc result param sendOk).calls = s.calls := by
  rw [getSwitchListAfterSwmSucc,respond_eq]
  split <;> rfl

theorem Counted.timeout (h : Counted s) (info : TxInfo) : Counted (s.switchResponseTimeout info) ∧
    (s.switchResponseTimeout info).calls = s.calls := by
  rcases switchResponseTimeout_cases s info with ⟨_,hs⟩ | ⟨tx,hfound,hsettles⟩
  · rw [hs]
    exact ⟨h,rfl⟩
  · refine ⟨h.settles hfound ?_ ?_ hsettles,hsettles.same.calls⟩
    · rw [expiredTx]
      split <;> rfl
    · rw [expiredTx]
      split <;> rfl

theorem Counted.deleteTimer (h : Counted s) (address : Nat) : Counted (s.deleteTimer address) :=
  ⟨h.tokens,h.fresh,h.budget,h.txids⟩

theorem Counted.handler (h : Counted s) (info : TxInfo) (result : EfiResult) :
    Counted (s.switchResponseHandler result info) ∧
    (s.switchResponseHandler result info).calls = s.calls := by
  rcases switchResponseHandler_cases s info result with ⟨_,hs⟩ | ⟨tx,hfound,_,hsettles⟩
  · rw [hs]
    exact ⟨h.deleteTimer _,rfl⟩
  · refine ⟨(h.deleteTimer info.address).settles hfound ?_ ?_ hsettles,hsettles.same.calls⟩
    · rfl
    · rfl

theorem Counted.step (h : Counted s) (e : Event) (hcalls : s.calls < 4294967296) :
    ∃ s', s.step e = .ok s' ∧ Counted s' ∧ s'.calls = s.calls + here (e.isStart = true) := by
  cases e with
  | start add type serviceName callback sendOk =>
    refine ⟨_,rfl,h.start rfl,?_⟩
    rw [changeToAllSwitches]
    split <;> rfl
  | timeout address =>
    rw [Interface.step]
    cases s.timer address with
    | none => exact ⟨s,rfl,h,rfl⟩
    | some info =>
      obtain ⟨hcounted,hsame⟩ := (h.deleteTimer address).timeout info
      exact ⟨_,rfl,hcounted,hsame⟩
  | expire k => exact ⟨_,rfl,h.deleteContext,rfl⟩
  | reply k r sendOk sends =>
    rw [Interface.step]
    cases hk : s.context k with
    | none => exact ⟨s,rfl,h,rfl⟩
    | some u =>
      cases u with
      | manager param => exact ⟨_,rfl,h.manager hk,calls_afterManager⟩
      | switchList param => exact h.switchList hk hcalls
      | switch info =>
        obtain ⟨hcounted,hsame⟩ := h.deleteContext.handler info r.operationResult
        exact ⟨_,rfl,hcounted,hsame⟩

end Interface

end Trema.EventForward
