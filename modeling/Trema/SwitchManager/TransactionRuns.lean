import Trema.SwitchManager.RequestEffects

namespace Trema.SwitchManager

open Library
open OpenFlow

section Generation

variable {σ : Type} {t : XidTable σ}

-- While the counter has only gone up, no live entry has the next value.
theorem generateXid_next {transactionId : UInt32} (hlt : transactionId.toNat + 1 < 4294967296)
    (hlive : ∀ xid e, t.lookupXidEntry xid = some e → xid.toNat ≤ transactionId.toNat) :
    (generateXid t transactionId).toNat = transactionId.toNat + 1 := by
  have hnext : (transactionId + 1).toNat = transactionId.toNat + 1 := by
    rw [UInt32.toNat_add]
    exact Nat.mod_eq_of_lt hlt
  have hmax : transactionId ≠ uint32Max := by
    rintro rfl
    exact absurd hlt (by decide)
  have hfree : xidInUse t (transactionId + 1) = false := by
    rw [xidInUse_eq_false]
    cases he : t.lookupXidEntry (transactionId + 1) with
    | none => rfl
    | some e =>
      have hle := hlive _ e he
      omega
  have hfound : searchXid t transactionId = .found (transactionId + 1) := by
    rw [searchXid,if_pos hmax]
    exact probe_found (k := 0) (by decide) (fun j hj => absurd hj (Nat.not_lt_zero j))
      (fun j hj => absurd hj (Nat.not_lt_zero j)) hfree
  rw [generateXid,hfound]
  exact hnext

theorem generateXid_iterate (n : Nat) {transactionId : UInt32}
    (hlt : transactionId.toNat + n < 4294967296)
    (hlive : ∀ xid e, t.lookupXidEntry xid = some e → xid.toNat ≤ transactionId.toNat) :
    ((generateXid t)^[n] transactionId).toNat = transactionId.toNat + n := by
  induction n generalizing transactionId with
  | zero => rfl
  | succ n ih =>
    have hnext := generateXid_next (by omega) hlive
    rw [Function.iterate_succ_apply,ih (by omega) (fun xid e he => by have := hlive xid e he; omega),hnext]
    omega

end Generation

namespace Happening

def givenXid? : Happening → Option UInt32
  | .given _ xid _ _ => some xid
  | _ => none

def xidEvent? : Happening → Option (XidEvent Bytes)
  | .given _ xid originalXid serviceName => some (.insert xid originalXid serviceName)
  | .replied xid true true _ => some (.delete xid)
  | _ => none

end Happening

def givenXids (happenings : List Happening) : List UInt32 := happenings.filterMap Happening.givenXid?

-- What becomes of the xid table in a transcript.
def xidLog (happenings : List Happening) : List (XidEvent Bytes) := happenings.filterMap Happening.xidEvent?

def loggedTable (happenings : List Happening) : XidTable Bytes := initXidTable.run (xidLog happenings)

-- The counter has gone up by one for every transaction id, and the table is the one that the transcript says.
structure Tracks (d : SwitchInfo) (happenings : List Happening) (generated : Nat) : Prop where
  consistent : d.xidTable.Consistent
  counter : d.transactionId.toNat = generated
  live : ∀ xid e, d.xidTable.lookupXidEntry xid = some e → xid.toNat ≤ generated
  given : ∀ xid ∈ givenXids happenings, xid.toNat ≤ generated
  distinct : (givenXids happenings).Nodup
  logged : d.xidTable = loggedTable happenings

namespace Tracks

open SwitchInfo

variable {d d' : SwitchInfo} {happenings : List Happening} {generated n : Nat} {x : Happening}
  {message serviceName : Bytes}

theorem init (options : StartOptions) : Tracks (initSwitchInfo options) [] 0 := by
  refine ⟨XidTable.init_consistent,rfl,?_,by simp [givenXids],.nil,rfl⟩
  intro xid e he
  exact absurd he (by simp [show (initSwitchInfo options).xidTable.lookupXidEntry xid = none from rfl])

theorem generates (h : Tracks d happenings generated) (hn : Generates n d d')
    (hlt : generated + n < 4294967296) : Tracks d' happenings (generated + n) := by
  have hcounter : d'.transactionId.toNat = generated + n := by
    rw [hn.transactionId,generateXid_iterate n (by rw [h.counter]; exact hlt)
      (by rw [h.counter]; exact h.live),h.counter]
  refine ⟨by rw [hn.xidTable]; exact h.consistent,hcounter,?_,?_,h.distinct,hn.xidTable.trans h.logged⟩
  · intro xid e he
    rw [hn.xidTable] at he
    exact Nat.le_add_right_of_le (h.live xid e he)
  · intro xid hxid
    exact Nat.le_add_right_of_le (h.given xid hxid)

theorem skip (h : Tracks d happenings generated) (hgiven : x.givenXid? = none) (hevent : x.xidEvent? = none) :
    Tracks d (happenings ++ [x]) generated := by
  have hxids : givenXids (happenings ++ [x]) = givenXids happenings := by simp [givenXids,hgiven]
  have hlog : loggedTable (happenings ++ [x]) = loggedTable happenings := by simp [loggedTable,xidLog,hevent]
  exact ⟨h.consistent,h.counter,h.live,by rw [hxids]; exact h.given,by rw [hxids]; exact h.distinct,
    by rw [hlog]; exact h.logged⟩

theorem kept (h : Tracks d happenings generated) (hxid : d'.xidTable = d.xidTable)
    (htransaction : d'.transactionId = d.transactionId) : Tracks d' happenings generated :=
  ⟨by rw [hxid]; exact h.consistent,by rw [htransaction]; exact h.counter,by rw [hxid]; exact h.live,
    h.given,h.distinct,hxid.trans h.logged⟩

theorem passedOn (h : Tracks d happenings generated) (last : Bool) (forwarded : List Output) :
    Tracks (d.passedOn message last)
      (happenings ++ [.replied (be32 message 4) true last forwarded]) generated := by
  have htransaction := (d.passedOn_sending message last).2
  have htable := d.passedOn_xidTable message last
  have hxids : givenXids (happenings ++ [.replied (be32 message 4) true last forwarded]) =
      givenXids happenings := by simp [givenXids,Happening.givenXid?]
  cases last with
  | false =>
    have hsame : Tracks (d.passedOn message false) happenings generated := h.kept htable htransaction
    exact hsame.skip rfl rfl
  | true =>
    have hlog : loggedTable (happenings ++ [.replied (be32 message 4) true true forwarded]) =
        (loggedTable happenings).step (.delete (be32 message 4)) := by
      simp [loggedTable,xidLog,Happening.xidEvent?,XidTable.run_append,XidTable.run]
    rw [if_pos rfl] at htable
    refine ⟨?_,by rw [htransaction]; exact h.counter,?_,by rw [hxids]; exact h.given,
      by rw [hxids]; exact h.distinct,?_⟩
    · rw [htable]
      exact h.consistent.step _
    · intro xid e he
      rw [htable,XidTable.step] at he
      cases hold : d.xidTable.lookupXidEntry (be32 message 4) with
      | none =>
        rw [hold] at he
        exact h.live xid e he
      | some a =>
        rw [hold] at he
        have ha : d.xidTable.lookupXidEntry a.xid = some a := by
          rw [h.consistent.keyed _ a hold]
          exact hold
        exact h.live xid e ((XidTable.lookup_delete_iff h.consistent ha).mp he).1
    · rw [htable,hlog,h.logged]

theorem registers (h : Tracks d happenings generated) (hreg : Registers message serviceName d d')
    (hlt : generated + 1 < 4294967296) (sentOut : Bool) : Tracks d' (happenings ++
      [.given sentOut d.insertedXid (be32 message 4) serviceName]) (generated + 1) := by
  have hxid : d.insertedXid.toNat = generated + 1 := by
    obtain ⟨_,_,hlook⟩ := XidTable.emptyNextSlot_spec h.consistent
    rw [insertedXid,generateXid_next (by rw [h.counter]; exact hlt),h.counter]
    intro xid e he
    rw [h.counter]
    exact h.live xid e ((hlook xid e).mp he).1
  have hxids : givenXids (happenings ++ [.given sentOut d.insertedXid (be32 message 4) serviceName]) =
      givenXids happenings ++ [d.insertedXid] := by simp [givenXids,Happening.givenXid?]
  have hlog : loggedTable (happenings ++ [.given sentOut d.insertedXid (be32 message 4) serviceName]) =
      (loggedTable happenings).insertXidEntry d.insertedXid (be32 message 4) serviceName := by
    simp [loggedTable,xidLog,Happening.xidEvent?,XidTable.run_append,XidTable.run,XidTable.step]
  refine ⟨by rw [hreg.xidTable]; exact h.consistent.insert,by rw [hreg.transactionId]; exact hxid,?_,?_,?_,?_⟩
  · intro xid e he
    rw [hreg.xidTable,XidTable.lookup_insert_iff h.consistent] at he
    rcases he with ⟨rfl,_⟩ | ⟨_,he,_⟩
    · exact hxid.le
    · exact Nat.le_succ_of_le (h.live xid e he)
  · rw [hxids]
    intro xid hmem
    rcases List.mem_append.mp hmem with hmem | hmem
    · exact Nat.le_succ_of_le (h.given xid hmem)
    · rw [List.mem_singleton.mp hmem]
      exact hxid.le
  · rw [hxids]
    refine List.nodup_append.mpr ⟨h.distinct,List.nodup_singleton _,?_⟩
    rintro xid hmem _ hnew rfl
    rw [List.mem_singleton.mp hnew] at hmem
    have hle := h.given _ hmem
    omega
  · rw [hreg.xidTable,hlog,h.logged]

end Tracks

-- A message that is passed on to a service with the transaction id that the service knows.
def Output.Returns (serviceName : Bytes) (originalXid : UInt32) : Output → Prop
  | .toService name .message _ (some message) => name = serviceName ∧ be32 message 4 = originalXid
  | _ => False

-- What is forwarded is what the transcript calls for.
def Answers (happenings : List Happening) : Happening → Prop
  | .replied xid true _ forwarded =>
    match (loggedTable happenings).lookupXidEntry xid with
    | none => forwarded = []
    | some entry => ∃ output, forwarded = [output] ∧ output.Returns entry.serviceName entry.originalXid
  | .replied _ false _ forwarded => forwarded = []
  | _ => True

namespace SwitchInfo

variable {d d' : SwitchInfo} {message : Bytes} {fuel : Nat} {env : Surroundings}

theorem handed_self (d : SwitchInfo) : d.handed d = [] := by simp [handed]

theorem isReply_of_heeds (h : d.heeds fuel env message = true) : isReply message = true := by
  rw [heeds] at h
  rw [isReply]
  split at h
  · rename_i t hvalid ht
    rw [ht]
    cases t with
    | error => rfl
    | featuresReply => rfl
    | _ => exact h
  · exact absurd h (by simp)

theorem heeded_fits (h : d.heeds fuel env message = true) : 8 ≤ message.length := by
  rw [heeds] at h
  split at h
  · rename_i hvalid _
    have haccepted : Accepts message := ⟨by simp,fuel,hvalid⟩
    obtain ⟨_,_,htype⟩ := haccepted.type
    exact (headed_of_accepted htype).fits
  · exact absurd h (by simp)

theorem answers_passedOn {happenings : List Happening} {d₁ : SwitchInfo} {m : Bytes}
    (hlogged : d₁.xidTable = loggedTable happenings) (hquiet : Quiet d d₁) (hlen : 8 ≤ m.length)
    (hxid : be32 m 4 = be32 message 4) (last : Bool) :
    Answers happenings (.replied (be32 message 4) true last (d.delivered (d₁.passedOn m last))) := by
  have hdelivered : d.delivered (d₁.passedOn m last) = d₁.forwardedReply m := by
    rw [hquiet.delivered_trans (passedOn_outputs last),forwardedReply_delivers]
  rw [Answers,hdelivered,forwardedReply,hlogged,hxid]
  cases (loggedTable happenings).lookupXidEntry (be32 message 4) with
  | none => rfl
  | some entry => exact ⟨_,rfl,rfl,be32_overwrite _ (by omega)⟩

end SwitchInfo

section Steps

open SwitchInfo

variable {d d' : Daemon} {happenings : List Happening} {generated fuel : Nat}

theorem Tracks.arrival {message : Bytes} {env : Surroundings} (h : Tracks d.info happenings generated)
    (hlt : generated + d.transactXids fuel (.arrival message env) < 4294967296)
    (hstep : d.transact fuel (.arrival message env) = .ok d') :
    Tracks d'.info (happenings ++ [d.happening fuel d' (.arrival message env)])
        (generated + d.transactXids fuel (.arrival message env)) ∧
      Answers happenings (d.happening fuel d' (.arrival message env)) := by
  rw [Daemon.transact] at hstep
  rw [Daemon.transactXids] at hlt ⊢
  rw [Daemon.happening]
  cases hopen : d.info.sending with
  | false =>
    rw [hopen,if_neg Bool.false_ne_true] at hstep
    injection hstep with hstep
    rw [← hstep,Bool.false_and,if_neg Bool.false_ne_true,if_neg Bool.false_ne_true]
    exact ⟨h.skip rfl rfl,trivial⟩
  | true =>
    rw [hopen,if_pos rfl] at hstep hlt
    obtain ⟨outcome,hreceived,hstep⟩ := bind_eq_ok.mp hstep
    injection hstep with hstep
    have hinfo : d'.info = outcome.info := by rw [← hstep]; rfl
    have htreats := treats_arrival hopen hreceived
    rw [hinfo,if_pos rfl,Bool.true_and]
    cases hheeds : d.info.heeds fuel env message with
    | true =>
      rw [hheeds] at htreats
      obtain ⟨d₁,m,hgenerates,hquiet,hlen,hxid,hpassed⟩ := htreats
      have htracks := h.generates hgenerates hlt
      have hfits : 8 ≤ m.length := by
        rw [hlen]
        exact heeded_fits hheeds
      have hd₁ := htracks.logged
      rw [if_pos (isReply_of_heeds hheeds),hpassed]
      refine ⟨?_,answers_passedOn hd₁ hquiet hfits hxid _⟩
      rw [← hxid]
      exact htracks.passedOn _ _
    | false =>
      rw [hheeds] at htreats
      have htracks := h.generates htreats.1 hlt
      split
      · rename_i hreply
        exact ⟨htracks.skip rfl rfl,(htreats.2 hreply).delivered⟩
      · exact ⟨htracks.skip rfl rfl,trivial⟩

theorem Tracks.request {datapathId : UInt64} {serviceName message : Bytes} {now : Int}
    (h : Tracks d.info happenings generated)
    (hlt : generated + d.transactXids fuel (.request datapathId serviceName message now) < 4294967296)
    (hstep : d.transact fuel (.request datapathId serviceName message now) = .ok d') :
    Tracks d'.info (happenings ++ [d.happening fuel d' (.request datapathId serviceName message now)])
        (generated + d.transactXids fuel (.request datapathId serviceName message now)) ∧
      Answers happenings (d.happening fuel d' (.request datapathId serviceName message now)) := by
  rw [Daemon.transact] at hstep
  rw [Daemon.transactXids] at hlt ⊢
  obtain ⟨info,hhandled,hstep⟩ := bind_eq_ok.mp hstep
  injection hstep with hstep
  have hinfo : d'.info = info := by rw [← hstep]
  rw [Daemon.happening,hinfo]
  rcases request_effect hhandled with ⟨hnone,rfl⟩ | ⟨hone,hreg⟩
  · rw [hnone,handed_self]
    exact ⟨h.skip rfl rfl,trivial⟩
  · rw [hone] at hlt ⊢
    rcases hreg.outputs with ⟨m,hm,hxid⟩ | houtputs
    · have hhanded : d.info.handed info = [m] := by simp [handed,hm,Output.toSwitch?]
      simp only [hhanded,hxid]
      exact ⟨h.registers hreg hlt true,trivial⟩
    · have hhanded : d.info.handed info = [] := by simp [handed,houtputs]
      simp only [hhanded,hreg.transactionId]
      exact ⟨h.registers hreg hlt false,trivial⟩

theorem generates_connected {d : SwitchInfo} {outcome : Outcome} (h : d.switchEventConnected = .ok outcome) :
    Generates 1 d outcome.info := by
  have hgreeted : Generates 1 d ((d.serviceSendState .connected).withXid.sent
      (framed (d.serviceSendState .connected).generatedXid .hello [])).info := by
    have hsent := (internal_generated (d := d.serviceSendState .connected)
      (framed (d.serviceSendState .connected).generatedXid .hello [])).generates
    exact ⟨hsent.xidTable,hsent.transactionId,hsent.sending⟩
  rw [switchEventConnected,ofpmsgSendHello_eq,ok_bind] at h
  split at h
  · injection h with h
    rw [← h]
    exact hgreeted
  · injection h with h
    rw [← h]
    exact ⟨hgreeted.xidTable,hgreeted.transactionId,hgreeted.sending⟩

theorem Tracks.echo {clock : UInt64} (h : Tracks d.info happenings generated)
    (hlt : generated + 1 < 4294967296) (hstep : d.echoRequestInterval clock = .ok d') :
    Tracks d'.info happenings (generated + 1) := by
  rw [Daemon.echoRequestInterval] at hstep
  obtain ⟨sent,hsent,hstep⟩ := bind_eq_ok.mp hstep
  rw [ofpmsgSendEchorequest] at hsent
  obtain ⟨message,_,hsent⟩ := bind_eq_ok.mp hsent
  have hgenerates : Generates 1 d.info sent.info := by
    rw [sendToSecureChannel] at hsent
    obtain ⟨_,_,hsent⟩ := bind_eq_ok.mp hsent
    split at hsent
    · injection hsent with hsent
      rw [← hsent]
      exact ⟨rfl,rfl,rfl⟩
    · injection hsent with hsent
      rw [← hsent]
      exact ⟨rfl,rfl,rfl⟩
  have htracks := h.generates hgenerates hlt
  split at hstep
  · injection hstep with hstep
    rw [← hstep]
    exact htracks.kept rfl rfl
  · injection hstep with hstep
    rw [← hstep]
    exact htracks.kept rfl rfl

theorem Tracks.transact {event : TransactionEvent} (h : Tracks d.info happenings generated)
    (hlt : generated + d.transactXids fuel event < 4294967296) (hstep : d.transact fuel event = .ok d') :
    Tracks d'.info (happenings ++ [d.happening fuel d' event]) (generated + d.transactXids fuel event) ∧
      Answers happenings (d.happening fuel d' event) := by
  cases event with
  | connected =>
    rw [Daemon.transact] at hstep
    obtain ⟨outcome,hconnected,hstep⟩ := bind_eq_ok.mp hstep
    injection hstep with hstep
    rw [← hstep]
    have htracks := h.generates (generates_connected hconnected) hlt
    exact ⟨htracks.skip rfl rfl,trivial⟩
  | request datapathId serviceName message now => exact h.request hlt hstep
  | arrival message env => exact h.arrival hlt hstep
  | echoInterval clock => exact ⟨(h.echo hlt hstep).skip rfl rfl,trivial⟩
  | disconnected =>
    injection hstep with hstep
    rw [← hstep]
    have hclosed : Tracks d.switchEventDisconnected.info happenings generated := h.kept rfl rfl
    exact ⟨hclosed.skip rfl rfl,trivial⟩

end Steps

end Trema.SwitchManager
