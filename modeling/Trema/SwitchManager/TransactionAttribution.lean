import Trema.SwitchManager.TransactionReplies

namespace Trema.SwitchManager

open Library
open OpenFlow

section Evictions

variable {d d' : Daemon} {fuel : Nat} {serviceName message : Bytes} {now : Int} {env : Surroundings}

theorem transcript_append (a b : List TransactionEvent) (h : d.transactAll fuel a = .ok d') :
    d.transcript fuel (a ++ b) = d.transcript fuel a ++ d'.transcript fuel b ∧
      d.generatedXids fuel (a ++ b) = d.generatedXids fuel a + d'.generatedXids fuel b := by
  induction a generalizing d with
  | nil =>
    injection h with h
    rw [h]
    exact ⟨rfl,(Nat.zero_add _).symm⟩
  | cons event a ih =>
    rw [Daemon.transactAll] at h
    obtain ⟨next,hnext,h⟩ := bind_eq_ok.mp h
    obtain ⟨htranscript,hxids⟩ := ih h
    simp only [List.cons_append,Daemon.transcript,Daemon.generatedXids,hnext]
    exact ⟨by rw [htranscript],by rw [hxids,Nat.add_assoc]⟩

-- The same request over and over.
theorem transact_repeated {event : TransactionEvent} {serves : Daemon → Prop} {sentOut : Bool} {originalXid : UInt32}
    (hstep : ∀ d, serves d → ∃ d' xid, d.transact fuel event = .ok d' ∧ serves d' ∧
      d.happening fuel d' event = .given sentOut xid originalXid serviceName ∧ d.transactXids fuel event = 1)
    (n : Nat) (hserves : serves d) :
    ∃ d', d.transactAll fuel (List.replicate n event) = .ok d' ∧ serves d' ∧
      (givenXids (d.transcript fuel (List.replicate n event))).length = n ∧
      (∀ x ∈ d.transcript fuel (List.replicate n event), ∃ xid, x = .given sentOut xid originalXid serviceName) ∧
      d.generatedXids fuel (List.replicate n event) = n := by
  induction n generalizing d with
  | zero => exact ⟨d,rfl,hserves,rfl,by simp [Daemon.transcript],rfl⟩
  | succ n ih =>
    obtain ⟨next,xid,hnext,hserves',hhappening,hone⟩ := hstep d hserves
    obtain ⟨d',hall,hlast,hcount,heach,hxids⟩ := ih hserves'
    refine ⟨d',?_,hlast,?_,?_,?_⟩
    · rw [List.replicate_succ,Daemon.transactAll,hnext]
      exact hall
    · simp only [List.replicate_succ,Daemon.transcript,hnext,hhappening,givenXids,List.filterMap_cons,
        Happening.givenXid?,List.length_cons]
      rw [givenXids] at hcount
      rw [hcount]
    · simp only [List.replicate_succ,Daemon.transcript,hnext,hhappening,List.forall_mem_cons]
      exact ⟨⟨xid,rfl⟩,heach⟩
    · simp only [List.replicate_succ,Daemon.generatedXids,hnext,hone,hxids]
      omega

variable (serviceName now)

theorem transactXids_request (hvalid : validateOpenflowMessage fuel message = .ok ()) :
    d.transactXids fuel (.request d.info.datapathId serviceName message now) = 1 := by
  rw [Daemon.transactXids,SwitchInfo.requestXids,hvalid]
  exact if_neg (not_not.mpr rfl)

-- A request that needs no translation goes out.
theorem transact_request (hopen : d.info.sending = true) (hvalid : validateOpenflowMessage fuel message = .ok ())
    (hmin : 8 ≤ message.length) (hplain : hostByte message 1 ≠ OfpType.flowMod.code) :
    ∃ d' xid, d.transact fuel (.request d.info.datapathId serviceName message now) = .ok d' ∧
      (d'.info.sending = true ∧ d'.info.datapathId = d.info.datapathId) ∧
      d.happening fuel d' (.request d.info.datapathId serviceName message now) =
        .given true xid (be32 message 4) serviceName := by
  have hsent : d.info.ofpmsgSend message serviceName now = _ :=
    SwitchInfo.ofpmsgSend_plain hmin fun h => hplain h.1
  let info := (d.info.insertXidEntry (be32 message 4) serviceName).emit
    (.toSwitch (overwrite message 4 (toNet32 d.info.insertedXid)))
  refine ⟨{ d with info := info },be32 (overwrite message 4 (toNet32 d.info.insertedXid)) 4,?_,⟨hopen,rfl⟩,?_⟩
  · rw [Daemon.transact,SwitchInfo.handleOpenflowMessage,hvalid,SwitchInfo.switchEventRecvFromApplication,
      if_neg (not_not.mpr rfl),hsent,SwitchInfo.sent,
      if_pos (show (d.info.insertXidEntry (be32 message 4) serviceName).sending = true from hopen)]
    rfl
  · have hhanded : d.info.handed info = [overwrite message 4 (toNet32 d.info.insertedXid)] := by
      simp [info,SwitchInfo.handed,SwitchInfo.emit,SwitchInfo.insertXidEntry,Output.toSwitch?]
    simp only [Daemon.happening,hhanded]

theorem transact_requests (hvalid : validateOpenflowMessage fuel message = .ok ()) (hmin : 8 ≤ message.length)
    (hplain : hostByte message 1 ≠ OfpType.flowMod.code) (n : Nat) (hopen : d.info.sending = true) :
    ∃ d', d.transactAll fuel (List.replicate n (.request d.info.datapathId serviceName message now)) = .ok d' ∧
      d'.info.sending = true ∧
      (givenXids (d.transcript fuel
        (List.replicate n (.request d.info.datapathId serviceName message now)))).length = n ∧
      d.generatedXids fuel (List.replicate n (.request d.info.datapathId serviceName message now)) = n := by
  let serves (next : Daemon) := next.info.sending = true ∧ next.info.datapathId = d.info.datapathId
  have hstep : ∀ next, serves next → ∃ next' xid,
      next.transact fuel (.request d.info.datapathId serviceName message now) = .ok next' ∧ serves next' ∧
      next.happening fuel next' (.request d.info.datapathId serviceName message now) =
        .given true xid (be32 message 4) serviceName ∧
      next.transactXids fuel (.request d.info.datapathId serviceName message now) = 1 := by
    rintro next ⟨hsending,hself⟩
    obtain ⟨next',xid,hnext,⟨hsending',hself'⟩,hhappening⟩ :=
      transact_request serviceName now hsending hvalid hmin hplain
    rw [hself] at hnext hself' hhappening
    refine ⟨next',xid,hnext,⟨hsending',hself'⟩,hhappening,?_⟩
    rw [← hself]
    exact transactXids_request serviceName now hvalid
  obtain ⟨d',hall,hserves,hcount,_,hxids⟩ := transact_repeated hstep n ⟨hopen,rfl⟩
  exact ⟨d',hall,hserves.1,hcount,hxids⟩

-- A flow_mod whose command is undefined gets its transaction id and stays.
theorem transact_undefined (hon : d.info.cookieTranslation = true)
    (hvalid : validateOpenflowMessage fuel message = .ok ()) (hh : Headed message .flowMod 72 65535)
    (hcommand : FlowModCommand.ofCode (be16 message 56) = none) :
    ∃ d' xid, d.transact fuel (.request d.info.datapathId serviceName message now) = .ok d' ∧
      (d'.info.sending = d.info.sending ∧ d'.info.cookieTranslation = true ∧
        d'.info.datapathId = d.info.datapathId) ∧
      d.happening fuel d' (.request d.info.datapathId serviceName message now) =
        .given false xid (be32 message 4) serviceName := by
  let info := d.info.insertXidEntry (be32 message 4) serviceName
  refine ⟨{ d with info := info },info.transactionId,?_,⟨rfl,hon,rfl⟩,?_⟩
  · rw [Daemon.transact,SwitchInfo.handleOpenflowMessage,hvalid,SwitchInfo.switchEventRecvFromApplication,
      if_neg (not_not.mpr rfl),SwitchInfo.ofpmsgSend_undefined hh hon hcommand]
    rfl
  · have hhanded : d.info.handed info = [] := by
      simp [info,SwitchInfo.handed,SwitchInfo.insertXidEntry]
    have hone : d.info.requestXids fuel message d.info.datapathId = 1 :=
      transactXids_request serviceName now hvalid
    simp only [Daemon.happening,hhanded,hone]
    rfl

theorem transact_undefineds (hvalid : validateOpenflowMessage fuel message = .ok ())
    (hh : Headed message .flowMod 72 65535) (hcommand : FlowModCommand.ofCode (be16 message 56) = none) (n : Nat)
    (hopen : d.info.sending = true) (hon : d.info.cookieTranslation = true) :
    ∃ d', d.transactAll fuel (List.replicate n (.request d.info.datapathId serviceName message now)) = .ok d' ∧
      d'.info.sending = true ∧
      (givenXids (d.transcript fuel
        (List.replicate n (.request d.info.datapathId serviceName message now)))).length = n ∧
      (∀ x ∈ d.transcript fuel (List.replicate n (.request d.info.datapathId serviceName message now)),
        ∃ xid, x = .given false xid (be32 message 4) serviceName) ∧
      d.generatedXids fuel (List.replicate n (.request d.info.datapathId serviceName message now)) = n := by
  let serves (next : Daemon) := next.info.sending = true ∧ next.info.cookieTranslation = true ∧
    next.info.datapathId = d.info.datapathId
  have hstep : ∀ next, serves next → ∃ next' xid,
      next.transact fuel (.request d.info.datapathId serviceName message now) = .ok next' ∧ serves next' ∧
      next.happening fuel next' (.request d.info.datapathId serviceName message now) =
        .given false xid (be32 message 4) serviceName ∧
      next.transactXids fuel (.request d.info.datapathId serviceName message now) = 1 := by
    rintro next ⟨hsending,htranslates,hself⟩
    obtain ⟨next',xid,hnext,⟨hsending',htranslates',hself'⟩,hhappening⟩ :=
      transact_undefined serviceName now htranslates hvalid hh hcommand
    rw [hself] at hnext hself' hhappening
    refine ⟨next',xid,hnext,⟨hsending'.trans hsending,htranslates',hself'⟩,hhappening,?_⟩
    rw [← hself]
    exact transactXids_request serviceName now hvalid
  obtain ⟨d',hall,hserves,hcount,heach,hxids⟩ := transact_repeated hstep n ⟨hopen,hon,rfl⟩
  exact ⟨d',hall,hserves.1,hcount,heach,hxids⟩

end Evictions

-- What the applications can rely on.
structure Attributed (transcript : List Happening) : Prop where
  distinct : (givenXids transcript).Nodup
  requested : ∀ before xid heeded last forwarded after,
    transcript = before ++ .replied xid heeded last forwarded :: after → ∀ output ∈ forwarded,
      ∃ sentOut originalXid serviceName, .given sentOut xid originalXid serviceName ∈ before ∧
        output.Returns serviceName originalXid
  once : ∀ before xid heeded forwarded between heeded' last forwarded' after,
    transcript = before ++ .replied xid heeded true forwarded :: between ++
      .replied xid heeded' last forwarded' :: after → forwarded ≠ [] → forwarded' = []
  forwarded : ∀ before sentOut xid originalXid serviceName between last forwarded after,
    transcript = before ++ .given sentOut xid originalXid serviceName :: between ++
      .replied xid true last forwarded :: after →
      (Awaited xid between → ∃ output, forwarded = [output] ∧ output.Returns serviceName originalXid) ∧
        (¬ Awaited xid between → forwarded = [])

theorem transactions_attributed (options : StartOptions) (fuel : Nat) (events : List TransactionEvent)
    (hxids : (Daemon.started (initSwitchInfo options)).generatedXids fuel events < 4294967296) :
    Attributed ((Daemon.started (initSwitchInfo options)).transcript fuel events) := by
  have h := run_coherent options hxids
  refine ⟨h.distinct,?_,?_,?_⟩
  · intro before xid heeded last forwarded after hsplit output houtput
    exact (h.requested hsplit houtput).2
  · intro before xid heeded forwarded between heeded' last forwarded' after hsplit hforwarded
    exact h.once hsplit hforwarded
  · intro before sentOut xid originalXid serviceName between last forwarded after hsplit
    obtain ⟨hawaited,hforwarded⟩ := h.forwarded_iff hsplit
    exact ⟨hawaited rfl,fun hno => by_contra fun hsome => hno (hforwarded hsome).2⟩

def requestingService : Bytes := [97]

def barrierEvents : List TransactionEvent :=
  [.connected,.request 0 requestingService barrierRequestMessage 0,
    .arrival [1,19,0,8,0,0,0,2] quietSurroundings]

theorem transactions_attributed_barrier :
    (Daemon.started (initSwitchInfo plainOptions)).transcript 1 barrierEvents =
        [.other,.given true 2 1 requestingService,.replied 2 true true
          [.toService requestingService .message 0 (some [1,19,0,8,0,0,0,1])]] ∧
      Attributed ((Daemon.started (initSwitchInfo plainOptions)).transcript 1 barrierEvents) :=
  ⟨by decide +kernel,transactions_attributed plainOptions 1 barrierEvents (by decide +kernel)⟩

def earlyErrorEvents : List TransactionEvent :=
  [.connected,.request 0 requestingService barrierRequestMessage 0,
    .arrival [1,1,0,12,0,0,0,2,0,1,0,0] quietSurroundings]

def tableStatsRequest : Bytes := [1,16,0,12,0,0,0,1,0,3,0,0]

def firstPart : Bytes := [1,17,0,12,0,0,0,2,0,3,0,1]

def lastPart : Bytes := [1,17,0,12,0,0,0,2,0,3,0,0]

def firstReply : Output := .toService requestingService .message 0 (some [1,17,0,12,0,0,0,1,0,3,0,1])

def interruptedEvents : List TransactionEvent :=
  [.connected,.request 0 requestingService tableStatsRequest 0,.arrival firstPart quietSurroundings,
    .arrival [1,19,0,8,0,0,0,2] quietSurroundings,.arrival lastPart quietSurroundings]

def requestedEvents : List TransactionEvent := [.connected,.request 0 requestingService tableStatsRequest 0]

def firstPartEvents : List TransactionEvent := requestedEvents ++ [.arrival firstPart quietSurroundings]

def undefinedFlowMod : Bytes := flowModMessage 5

def evictingEvents : List TransactionEvent :=
  firstPartEvents ++
    (List.replicate xidMaxEntries (.request 0 requestingService barrierRequestMessage 0) ++
      [.arrival lastPart quietSurroundings])

def silencedEvents : List TransactionEvent :=
  requestedEvents ++
    (List.replicate xidMaxEntries (.request 0 requestingService undefinedFlowMod 0) ++
      [.arrival lastPart quietSurroundings])

theorem started_run {events : List TransactionEvent}
    (hchecked : ((Daemon.started (initSwitchInfo plainOptions)).transactAll 1 events).toOption.map
      (fun d => (d.info.sending,d.info.cookieTranslation,d.info.datapathId)) = some (true,true,0)) :
    ∃ d, (Daemon.started (initSwitchInfo plainOptions)).transactAll 1 events = .ok d ∧
      d.info.sending = true ∧ d.info.cookieTranslation = true ∧ d.info.datapathId = 0 := by
  obtain ⟨d,hd,hall⟩ := Option.map_eq_some_iff.mp hchecked
  injection hall with hopen hall
  injection hall with hon hself
  cases hrun : (Daemon.started (initSwitchInfo plainOptions)).transactAll 1 events with
  | error stop =>
    rw [hrun] at hd
    exact absurd hd (by simp [Except.toOption])
  | ok d' =>
    rw [hrun] at hd
    rw [Option.some.inj hd]
    exact ⟨d,rfl,hopen,hon,hself⟩

theorem transact_lastPart {d : Daemon} (hopen : d.info.sending = true) :
    ∃ d' forwarded, d.transact 1 (.arrival lastPart quietSurroundings) = .ok d' ∧
      d.happening 1 d' (.arrival lastPart quietSurroundings) = .replied 2 true true forwarded ∧
      d.transactXids 1 (.arrival lastPart quietSurroundings) = 0 := by
  have hvalid : validateOpenflowMessage 1 lastPart = .ok () := by decide +kernel
  have htype : OfpType.ofCode (hostByte lastPart 1) = some .statsReply := by decide
  have hh : Headed lastPart .statsReply 12 65535 := headed_of_type ⟨by simp,1,hvalid⟩ htype
  have htranslated : OpenFlow.ofpmsgRecvStatsreply d.info.applicationCookie d.info.cookieTranslation 1 lastPart =
      .ok lastPart := by
    rw [translateStatsreply_eq hh,if_neg (fun h => absurd h.1 (by decide))]
    rfl
  obtain ⟨outcome,houtcome⟩ := SwitchInfo.statsreply_ok (by decide) htranslated
  have hreceived : d.info.ofpmsgRecv 1 quietSurroundings lastPart = .ok outcome := by
    rw [SwitchInfo.ofpmsgRecv,hvalid]
    exact houtcome
  have hheeds : d.info.heeds 1 quietSurroundings lastPart = true := by
    rw [SwitchInfo.heeds,hvalid,htype]
    rfl
  refine ⟨d.withInfo outcome.info,d.info.delivered outcome.info,?_,?_,?_⟩
  · rw [Daemon.transact,if_pos hopen,hreceived]
    rfl
  · rw [Daemon.happening,hopen,hheeds]
    rfl
  · rw [Daemon.transactXids,if_pos hopen,SwitchInfo.arrivalXids,hvalid,htype]
    rfl

-- The last part of a reply finds that its request's entry has made room for a later one.
theorem evicted_part {start many : List TransactionEvent} {front : List Happening} {d d' : Daemon}
    (hrun : (Daemon.started (initSwitchInfo plainOptions)).transactAll 1 start = .ok d)
    (hstart : (Daemon.started (initSwitchInfo plainOptions)).transcript 1 start =
      [.other,.given true 2 1 requestingService] ++ front)
    (hstartXids : (Daemon.started (initSwitchInfo plainOptions)).generatedXids 1 start = 2)
    (hall : d.transactAll 1 many = .ok d') (hopen : d'.info.sending = true)
    (hcount : (givenXids (d.transcript 1 many)).length = xidMaxEntries)
    (hxids : d.generatedXids 1 many = xidMaxEntries) :
    (Daemon.started (initSwitchInfo plainOptions)).transcript 1 (start ++ (many ++ [.arrival lastPart quietSurroundings])) =
      [.other,.given true 2 1 requestingService] ++ front ++ d.transcript 1 many ++ [.replied 2 true true []] ∧
    (Daemon.started (initSwitchInfo plainOptions)).generatedXids 1
      (start ++ (many ++ [.arrival lastPart quietSurroundings])) < 4294967296 := by
  obtain ⟨d'',forwarded,hstep,hhappening,hzero⟩ := transact_lastPart hopen
  obtain ⟨hfirst,hfirstXids⟩ := transcript_append _ (many ++ [.arrival lastPart quietSurroundings]) hrun
  obtain ⟨hsecond,hsecondXids⟩ := transcript_append _ [.arrival lastPart quietSurroundings] hall
  have hthird : d'.transcript 1 [.arrival lastPart quietSurroundings] = [.replied 2 true true forwarded] := by
    simp only [Daemon.transcript,hstep,hhappening]
  have hthirdXids : d'.generatedXids 1 [.arrival lastPart quietSurroundings] = 0 := by
    simp only [Daemon.generatedXids,hstep,hzero]
  have hfew : (Daemon.started (initSwitchInfo plainOptions)).generatedXids 1
      (start ++ (many ++ [.arrival lastPart quietSurroundings])) < 4294967296 := by
    rw [hfirstXids,hsecondXids,hthirdXids,hstartXids,hxids]
    decide
  have hevents : (Daemon.started (initSwitchInfo plainOptions)).transcript 1
      (start ++ (many ++ [.arrival lastPart quietSurroundings])) =
        [.other] ++ .given true 2 1 requestingService :: (front ++ d.transcript 1 many) ++
          .replied 2 true true forwarded :: [] := by
    rw [hfirst,hsecond,hthird,hstart]
    simp
  have hnone : forwarded = [] := by
    by_contra hsome
    have hawaited := (((run_coherent plainOptions hfew).forwarded_iff hevents).2 hsome).2.2
    have hlength : (givenXids (front ++ d.transcript 1 many)).length =
        (givenXids front).length + (givenXids (d.transcript 1 many)).length := by
      simp only [givenXids,List.filterMap_append,List.length_append]
    rw [hlength,hcount] at hawaited
    omega
  rw [hnone] at hevents
  refine ⟨hevents.trans ?_,hfew⟩
  simp

theorem evicted_by_requests : ∃ between, (givenXids between).length = xidMaxEntries ∧
    (Daemon.started (initSwitchInfo plainOptions)).transcript 1 evictingEvents =
      [.other,.given true 2 1 requestingService] ++ [.replied 2 true false [firstReply]] ++ between ++
        [.replied 2 true true []] ∧
    (Daemon.started (initSwitchInfo plainOptions)).generatedXids 1 evictingEvents < 4294967296 := by
  obtain ⟨d,hrun,hopen,_,hself⟩ := @started_run firstPartEvents (by decide +kernel)
  have hvalid : validateOpenflowMessage 1 barrierRequestMessage = .ok () := by decide +kernel
  obtain ⟨d',hall,hlast,hcount,hxids⟩ := transact_requests requestingService 0 hvalid (by decide) (by decide)
    xidMaxEntries hopen
  rw [hself] at hall hcount hxids
  exact ⟨_,hcount,evicted_part hrun (by decide +kernel) (by decide +kernel) hall hlast hcount hxids⟩

-- Flow_mods that stay in the daemon make the room just as well.
theorem evicted_by_kept : ∃ between,
    (∀ x ∈ between, ∃ xid, x = .given false xid 7 requestingService) ∧
    (Daemon.started (initSwitchInfo plainOptions)).transcript 1 silencedEvents =
      [.other,.given true 2 1 requestingService] ++ between ++ [.replied 2 true true []] ∧
    (Daemon.started (initSwitchInfo plainOptions)).generatedXids 1 silencedEvents < 4294967296 := by
  obtain ⟨d,hrun,hopen,hon,hself⟩ := @started_run requestedEvents (by decide +kernel)
  have hvalid : validateOpenflowMessage 1 undefinedFlowMod = .ok () := by decide +kernel
  have hh : Headed undefinedFlowMod .flowMod 72 65535 := headed_of_type ⟨by simp,1,hvalid⟩ (by decide)
  obtain ⟨d',hall,hlast,hcount,heach,hxids⟩ := transact_undefineds requestingService 0 hvalid hh (by decide)
    xidMaxEntries hopen hon
  rw [hself] at hall hcount heach hxids
  exact ⟨_,heach,evicted_part hrun (by decide +kernel) (by decide +kernel) hall hlast hcount hxids⟩

-- The first reply to a request is not forwarded where its handler turns it away, or where 4096 requests come before it
-- that are given a transaction id and not sent; and a part of a reply is not where another reply or 4096 requests have
-- come before it.
theorem replies_unforwarded :
    ((Daemon.started (initSwitchInfo plainOptions)).generatedXids 1 earlyErrorEvents < 4294967296 ∧
      (Daemon.started (initSwitchInfo plainOptions)).transcript 1 earlyErrorEvents =
        [.other,.given true 2 1 requestingService,.replied 2 false true []]) ∧
    ((Daemon.started (initSwitchInfo plainOptions)).generatedXids 1 interruptedEvents < 4294967296 ∧
      (Daemon.started (initSwitchInfo plainOptions)).transcript 1 interruptedEvents =
        [.other,.given true 2 1 requestingService,
          .replied 2 true false [firstReply],
          .replied 2 true true [.toService requestingService .message 0 (some [1,19,0,8,0,0,0,1])],
          .replied 2 true true []]) ∧
    (∃ between, (givenXids between).length = xidMaxEntries ∧
      (Daemon.started (initSwitchInfo plainOptions)).transcript 1 evictingEvents =
        [.other,.given true 2 1 requestingService] ++ [.replied 2 true false [firstReply]] ++ between ++
          [.replied 2 true true []] ∧
      (Daemon.started (initSwitchInfo plainOptions)).generatedXids 1 evictingEvents < 4294967296) ∧
    ∃ between, (∀ x ∈ between, ∃ xid, x = .given false xid 7 requestingService) ∧
      (Daemon.started (initSwitchInfo plainOptions)).transcript 1 silencedEvents =
        [.other,.given true 2 1 requestingService] ++ between ++ [.replied 2 true true []] ∧
      (Daemon.started (initSwitchInfo plainOptions)).generatedXids 1 silencedEvents < 4294967296 :=
  ⟨⟨by decide +kernel,by decide +kernel⟩,⟨by decide +kernel,by decide +kernel⟩,evicted_by_requests,evicted_by_kept⟩

end Trema.SwitchManager
