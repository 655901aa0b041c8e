import Trema.EventForward.AllSwitches

namespace Trema.EventForward

open Library
open OpenFlow (Exec abortIf)

namespace Interface

variable {s s' : Interface} {param : AllParam} {tx tx' : AllSwTx} {result : EfiResult} {info : TxInfo} {txid : UInt32}
  {dpid : UInt64} {dpids : List UInt64} {send : Dispatch} {sends : Nat → Dispatch}

theorem deleteTx_respond : (s.respond param result).deleteTx txid = (s.deleteTx txid).respond param result := by
  rw [respond,respond]
  split <;> rfl

theorem deleteTx_putTx : (s.putTx tx).deleteTx tx.txid = s.deleteTx tx.txid := by
  simp [putTx,deleteTx]

theorem txid_lookupTx (h : s.lookupTx txid = some tx) : tx.txid = txid := by
  simpa using List.find?_some h

theorem mem_lookupTx (h : s.lookupTx txid = some tx) : tx ∈ s.efiTxTable := List.mem_of_find?_eq_some h

-- How a transaction stands after a response or a timeout.
inductive Settles (s : Interface) (tx : AllSwTx) : Interface → Prop
  | failed : tx.txResult = .failed → Settles s tx ((s.deleteTx tx.txid).respond tx.requestParam .failed)
  | succeeded : tx.txResult = .succeeded → tx.waitingDpid = [] →
      Settles s tx ((s.deleteTx tx.txid).respond tx.requestParam .succeeded)
  | waits : tx.txResult = .succeeded → Settles s tx (s.putTx tx)

theorem check_failed (h : tx.txResult = .failed) : s.checkTxResultAndRespond tx =
    (true,(s.deleteTx tx.txid).respond tx.requestParam .failed) := by
  rw [checkTxResultAndRespond,if_pos h,deleteTx_respond,h]

theorem check_waits (h : tx.txResult = .succeeded) : s.checkTxResultAndRespond tx = (false,s.putTx tx) := by
  rw [checkTxResultAndRespond,if_neg (by simp [h])]

theorem settles_check : Settles s tx (s.checkTxResultAndRespond tx).2 := by
  cases h : tx.txResult with
  | failed =>
    rw [check_failed h]
    exact .failed h
  | succeeded =>
    rw [check_waits h]
    exact .waits h

def expiredTx (tx : AllSwTx) (dpid : UInt64) : AllSwTx :=
  if dpid ∈ tx.waitingDpid then { tx with waitingDpid := tx.waitingDpid.erase dpid, txResult := .failed } else tx

theorem switchResponseTimeout_cases (s : Interface) (info : TxInfo) :
    (s.lookupTx info.txid = none ∧ s.switchResponseTimeout info = s) ∨
      ∃ tx, s.lookupTx info.txid = some tx ∧ Settles s (expiredTx tx info.dpid) (s.switchResponseTimeout info) := by
  rw [switchResponseTimeout]
  cases h : s.lookupTx info.txid with
  | none => exact .inl ⟨rfl,rfl⟩
  | some tx =>
    refine .inr ⟨tx,rfl,?_⟩
    simp only [expiredTx]
    split
    · exact settles_check
    · exact settles_check

theorem switchResponseHandler_cases (s : Interface) (info : TxInfo) (result : EfiResult) :
    ((∀ tx, (s.deleteTimer info.address).lookupTx info.txid = some tx → info.dpid ∉ tx.waitingDpid) ∧
      s.switchResponseHandler result info = s.deleteTimer info.address) ∨
    ∃ tx, (s.deleteTimer info.address).lookupTx info.txid = some tx ∧ info.dpid ∈ tx.waitingDpid ∧
      Settles (s.deleteTimer info.address) (answeredTx tx result info.dpid) (s.switchResponseHandler result info) := by
  rw [switchResponseHandler]
  simp only
  generalize s.deleteTimer info.address = s
  cases h : s.lookupTx info.txid with
  | none => exact .inl ⟨by simp,rfl⟩
  | some tx =>
    simp only
    by_cases hd : info.dpid ∈ tx.waitingDpid
    · refine .inr ⟨tx,rfl,hd,?_⟩
      rw [if_pos hd]
      generalize answeredTx tx result info.dpid = tx'
      cases hr : tx'.txResult with
      | failed =>
        simp only [check_failed hr]
        exact .failed hr
      | succeeded =>
        simp only [check_waits hr]
        split
        · rename_i hnil
          rw [deleteTx_respond,deleteTx_putTx]
          exact .succeeded hr hnil
        · exact .waits hr
    · refine .inl ⟨fun tx' htx => ?_,by rw [if_neg hd]⟩
      rw [← Option.some.inj htx]
      exact hd

-- What sending to the switches adds to the interface, and what it makes of the transaction.
structure Dispatched (s : Interface) (tx : AllSwTx) (s' : Interface) (tx' : AllSwTx) : Prop where
  requestParam : tx'.requestParam = tx.requestParam
  txid : tx'.txid = tx.txid
  table : s'.efiTxTable = s.efiTxTable
  reports : s'.reports = s.reports
  calls : s'.calls = s.calls
  counter : s'.txid = s.txid
  contexts : ∃ added, s'.contexts = s.contexts ++ added ∧
    ∀ x ∈ added, ∃ info, x.2 = .switch info ∧ info.txid = tx.txid
  timers : ∃ added, s'.timers = s.timers ++ added ∧ ∀ t ∈ added, t.txid = tx.txid
  failed : tx.txResult = .failed → tx'.txResult = .failed
  waiting : ∀ d ∈ tx.waitingDpid, d ∈ tx'.waitingDpid

theorem Dispatched.refl (s : Interface) (tx : AllSwTx) : Dispatched s tx s tx :=
  ⟨rfl,rfl,rfl,rfl,rfl,rfl,⟨[],by simp,by simp⟩,⟨[],by simp,by simp⟩,id,fun _ => id⟩

theorem Dispatched.trans {s'' : Interface} {tx'' : AllSwTx} (h : Dispatched s tx s' tx') (h' : Dispatched s' tx' s'' tx'') :
    Dispatched s tx s'' tx'' := by
  obtain ⟨a,ha,hca⟩ := h.contexts
  obtain ⟨b,hb,hcb⟩ := h'.contexts
  obtain ⟨x,hx,htx⟩ := h.timers
  obtain ⟨y,hy,hty⟩ := h'.timers
  have htxid := h.txid
  refine ⟨h'.requestParam.trans h.requestParam,h'.txid.trans h.txid,h'.table.trans h.table,h'.reports.trans h.reports,
    h'.calls.trans h.calls,h'.counter.trans h.counter,⟨a ++ b,by rw [hb,ha,List.append_assoc],fun z hz => ?_⟩,
    ⟨x ++ y,by rw [hy,hx,List.append_assoc],fun z hz => ?_⟩,fun hf => h'.failed (h.failed hf),
    fun d hd => h'.waiting d (h.waiting d hd)⟩
  · rcases List.mem_append.mp hz with hz | hz
    · exact hca z hz
    · obtain ⟨info,hinfo,hi⟩ := hcb z hz
      exact ⟨info,hinfo,hi.trans htxid⟩
  · rcases List.mem_append.mp hz with hz | hz
    · exact htx z hz
    · exact (hty z hz).trans htxid

theorem dispatched_one (s : Interface) (param : AllParam) (send : Dispatch) (dpid : UInt64) (tx : AllSwTx) :
    Dispatched s tx (s.dispatchOne param send dpid tx).2 (s.dispatchOne param send dpid tx).1 := by
  rw [dispatchOne]
  split
  · exact .refl s tx
  · cases send with
    | sendFailed => exact ⟨rfl,rfl,rfl,rfl,rfl,rfl,⟨[],by simp,by simp⟩,⟨[],by simp,by simp⟩,fun _ => rfl,fun _ => id⟩
    | timerFailed =>
      exact ⟨rfl,rfl,rfl,rfl,rfl,rfl,⟨_,rfl,fun x hx => ⟨_,congrArg Prod.snd (List.mem_singleton.mp hx),rfl⟩⟩,
        ⟨[],by simp [request],by simp⟩,fun _ => rfl,fun _ => id⟩
    | dispatched =>
      exact ⟨rfl,rfl,rfl,rfl,rfl,rfl,⟨_,rfl,fun x hx => ⟨_,congrArg Prod.snd (List.mem_singleton.mp hx),rfl⟩⟩,
        ⟨_,rfl,fun t ht => by rw [List.mem_singleton.mp ht]⟩,id,fun d hd => List.mem_cons_of_mem _ hd⟩

theorem dispatched_all (param : AllParam) (sends : Nat → Dispatch) (i : Nat) (dpids : List UInt64) (tx : AllSwTx)
    (s : Interface) : Dispatched s tx (dispatchAll param sends i dpids tx s).2
    (dispatchAll param sends i dpids tx s).1 := by
  induction dpids generalizing i s tx with
  | nil => exact .refl s tx
  | cons dpid dpids ih => exact (dispatched_one s param (sends i) dpid tx).trans (ih (i + 1) _ _)

def openedTx (s : Interface) (param : AllParam) : AllSwTx := ⟨s.txid + 1,[],.succeeded,param⟩

def opened (s : Interface) (param : AllParam) : Interface := { s with txid := s.txid + 1 }.putTx (s.openedTx param)

theorem insertTx_fresh (h : s.lookupTx (s.txid + 1) = none) :
    s.insertTx param = .ok (s.openedTx param,s.opened param) := by
  rw [insertTx,abortIf,if_neg (not_not.mpr h),ok_bind]
  rfl

-- Nothing is left to wait for, or the transaction waits for the switches.
inductive Concludes (dpids : List UInt64) (mid : Interface) (tx : AllSwTx) : Interface → Prop
  | ends : dpids = [] ∨ tx.txResult = .failed →
      Concludes dpids mid tx ((mid.deleteTx tx.txid).respond tx.requestParam tx.txResult)
  | waits : dpids ≠ [] → tx.txResult = .succeeded → Concludes dpids mid tx (mid.putTx tx)

theorem dispatchToAllSwitch_fresh (dpids : List UInt64) (param : AllParam) (sends : Nat → Dispatch)
    (h : s.lookupTx (s.txid + 1) = none) : ∃ tx' mid s',
    dispatchAll param sends 0 dpids (s.openedTx param) (s.opened param) = (tx',mid) ∧
      Dispatched (s.opened param) (s.openedTx param) mid tx' ∧
        s.dispatchToAllSwitch dpids param sends = .ok s' ∧ Concludes dpids mid tx' s' := by
  have hd := dispatched_all param sends 0 dpids (s.openedTx param) (s.opened param)
  have hrun : s.dispatchToAllSwitch dpids param sends =
      let all := dispatchAll param sends 0 dpids (s.openedTx param) (s.opened param)
      .ok (if dpids = [] ∨ all.1.txResult = .failed then (all.2.respond param all.1.txResult).deleteTx all.1.txid
        else all.2.putTx all.1) := by
    rw [dispatchToAllSwitch,insertTx_fresh h,ok_bind]
    exact (apply_ite Except.ok _ _ _).symm
  rcases hall : dispatchAll param sends 0 dpids (s.openedTx param) (s.opened param) with ⟨tx',mid⟩
  rw [hall] at hd hrun
  refine ⟨tx',mid,_,rfl,hd,hrun,?_⟩
  simp only
  split
  · rename_i hends
    have hparam : tx'.requestParam = param := hd.requestParam
    rw [deleteTx_respond,← hparam]
    exact .ends hends
  · rename_i hwaits
    obtain ⟨hne,hok⟩ := not_or.mp hwaits
    refine .waits hne ?_
    cases hr : tx'.txResult with
    | failed => exact absurd hr hok
    | succeeded => rfl

end Interface

end Trema.EventForward
