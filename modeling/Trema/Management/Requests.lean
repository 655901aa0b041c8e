import Trema.Management.Interface

namespace Trema.Management

open Library Table
open Startup (priorityValueFrom)

section Reading

variable {data rest : Bytes} {type : UInt16} {status : UInt8} {n : Nat}

theorem be16_front (x : UInt16) (rest : Bytes) : be16 (toNet16 x ++ rest) 0 = x := by
  have hslice : slice (toNet16 x ++ rest) 0 2 = toNet16 x := by
    rw [slice_append_left (by simp)]
    exact slice_whole (by simp)
  rw [be16,hslice,ofNat_beNat_toNet16]

theorem be32_at (front : Bytes) (x : UInt32) (rest : Bytes) : be32 (front ++ toNet32 x ++ rest) front.length = x := by
  have hslice : slice (front ++ toNet32 x ++ rest) front.length 4 = toNet32 x := by
    rw [List.append_assoc,slice_append_right _ le_rfl,Nat.sub_self,slice_append_left (by simp)]
    exact slice_whole (by simp)
  rw [be32,hslice,ofNat_beNat_toNet32]

theorem net32_at (front rest : Bytes) (x : UInt32) {off : Nat} (hoff : off = front.length) :
    (net32 (front ++ toNet32 x ++ rest) off : Run Empty UInt32) = .ok x := by
  subst hoff
  rw [net32_inside (by simp),be32_at]

theorem toNat_of_lt (h : n < 2 ^ 32) : (UInt32.ofNat n).toNat = n := UInt32.toNat_ofNat_of_lt' h

theorem request_type (n : Nat) (rest : Bytes) : (net16 (requestHeader type n ++ rest) 0 : Run Empty UInt16) = .ok type := by
  rw [net16_inside (by simp [requestHeader]),requestHeader,List.append_assoc,be16_front]

theorem request_length (type : UInt16) (rest : Bytes) (hn : n < 2 ^ 32) : ∃ length, (net32 (requestHeader type n ++ rest) 2 : Run Empty UInt32) = .ok length ∧
    length.toNat = n := by
  refine ⟨_,?_,toNat_of_lt hn⟩
  exact net32_at (toNet16 type) rest _ (by simp)

theorem reply_status (hn : n < 2 ^ 32) {fits : Bool} (hfits : fits = true) (hlen : (replyHeader type status n ++ rest).length = n) :
    replyStatus messengerManagementReply (replyHeader type status n ++ rest) type fits = .ok status := by
  have htype : (net16 (replyHeader type status n ++ rest) 0 : Run Empty UInt16) = .ok type := by
    rw [net16_inside (by simp [replyHeader]),replyHeader,List.append_assoc,List.append_assoc,be16_front]
  have hlength : (net32 (replyHeader type status n ++ rest) 4 : Run Empty UInt32) = .ok (UInt32.ofNat n) :=
    net32_at (toNet16 type ++ [status,0]) rest _ (by simp)
  have hbyte : (byteAt (replyHeader type status n ++ rest) 2 : Run Empty UInt8) = .ok status := by
    rw [byteAt_inside (by simp [replyHeader]; omega),hostByte,replyHeader,List.append_assoc,List.append_assoc,
      slice_append_right 1 (by simp)]
    simp [slice,leNat]
  simp only [replyStatus,htype,hlength,hbyte,ok_bind,hfits,toNat_of_lt hn,hlen]
  simp [abortIf]

theorem checked_header (hn : n < 2 ^ 32) {fits : Nat → Bool} (hfits : fits n = true) :
    checked (requestHeader type n ++ rest) type fits = .ok () := by
  obtain ⟨length,hlength,hval⟩ := request_length type rest hn
  simp only [checked,request_type,hlength,ok_bind,hval,hfits]
  simp [abortIf]

end Reading

section Faults

variable {p : Process} {clock : Option TimespecN} {data : Bytes} {tag : UInt16}

theorem checked_ok {type : UInt16} {fits : Nat → Bool} (hlen : 6 ≤ data.length) (htype : be16 data 0 = type)
    (hfits : fits (be32 data 2).toNat = true) : checked data type fits = .ok () := by
  rw [checked,net16_inside (by omega),ok_bind,net32_inside (by omega)]
  simp [abortIf,htype,hfits]

-- The terminator that the handler writes ends the level.
theorem level_read (hlen : data.length = 18) : ∃ request level,
    (store data 17 [0] : Run Empty Bytes) = .ok request ∧ stringAt request 6 = .ok level := by
  refine ⟨_,_,store_ok (by simp [hlen]),if_pos ?_⟩
  rw [List.append_assoc,List.drop_append_of_le_length (by simp [hlen])]
  simp

section Handlers

variable (hlong : 6 ≤ data.length) (hsame : (be32 data 2).toNat = data.length)
include hlong hsame

theorem echo_total (clock : Option TimespecN) (htype : be16 data 0 = managementEchoRequest) (hsize : data.length = 14) :
    ∃ outcome, handleEchoRequest clock data = .ok outcome := by
  rw [handleEchoRequest,checked_ok hlong htype (by simp [hsame,hsize]),ok_bind,load_ok (by omega)]
  exact ⟨_,rfl⟩

theorem level_total (htype : be16 data 0 = managementSetLoggingLevelRequest) (hsize : data.length = 18) :
    ∃ p' outcome, handleSetLoggingLevelRequest p data = .ok (p',outcome) := by
  obtain ⟨request,level,hstore,hlevel⟩ := level_read hsize
  have hend : (store data (6 + (loggingLevelStrLength - 1)) [0] : Run Empty Bytes) = .ok request := hstore
  rw [handleSetLoggingLevelRequest,checked_ok hlong htype (by rw [hsame,hsize]; rfl),ok_bind,hend,ok_bind,hlevel,
    ok_bind]
  cases priorityValueFrom (levelText level) with
  | none => exact ⟨_,_,rfl⟩
  | some value => exact ⟨_,_,rfl⟩

theorem stats_total (hfew : (foreachHash p.stats).length < 2 ^ 32) (htype : be16 data 0 = managementShowStatsRequest)
    (hsize : data.length = 6) : ∃ outcome, handleShowStatsRequest p data = .ok outcome := by
  have hcount : (foreachStat p.stats).length % 2 ^ 32 = (foreachStat p.stats).length :=
    Nat.mod_eq_of_lt (by rw [foreachStat,List.length_map]; exact hfew)
  rw [handleShowStatsRequest,checked_ok hlong htype (by simp [hsame,hsize]),ok_bind]
  simp only [hcount,lt_irrefl,if_false]
  split
  · exact ⟨_,rfl⟩
  · exact ⟨_,rfl⟩

theorem application_total (htype : be16 data 0 = managementApplicationRequest) (hsize : 10 ≤ data.length) :
    ∃ outcome, handleApplicationRequest p data = .ok outcome := by
  rw [handleApplicationRequest,checked_ok hlong htype (by simp [hsame,hsize]),ok_bind,net32_inside (by omega),ok_bind]
  split
  · rw [net32_inside (by omega),ok_bind,load_ok (by omega)]
    exact ⟨_,rfl⟩
  · exact ⟨_,rfl⟩

theorem dispatch_total (hfew : (foreachHash p.stats).length < 2 ^ 32) :
    ∃ p' outcome, dispatch p clock data (be16 data 0) = .ok (p',outcome) := by
  rw [dispatch]
  split
  · rename_i htype
    split
    · exact ⟨_,_,rfl⟩
    · rename_i hsize
      obtain ⟨outcome,hrun⟩ := echo_total hlong hsame clock htype (not_not.mp hsize)
      exact ⟨p,outcome,by rw [hrun]; rfl⟩
  · split
    · rename_i htype
      split
      · exact ⟨_,_,rfl⟩
      · rename_i hsize
        exact level_total hlong hsame htype (not_not.mp hsize)
    · split
      · rename_i htype
        split
        · exact ⟨_,_,rfl⟩
        · rename_i hsize
          obtain ⟨outcome,hrun⟩ := stats_total hlong hsame hfew htype (not_not.mp hsize)
          exact ⟨p,outcome,by rw [hrun]; rfl⟩
      · split
        · rename_i htype
          split
          · exact ⟨_,_,rfl⟩
          · rename_i hsize
            obtain ⟨outcome,hrun⟩ := application_total (p := p) hlong hsame htype (by omega)
            exact ⟨p,outcome,by rw [hrun]; rfl⟩
        · exact ⟨_,_,rfl⟩

theorem handleManagementRequest_eq : handleManagementRequest p clock data = dispatch p clock data (be16 data 0) := by
  rw [handleManagementRequest,net32_inside (by omega),net16_inside (by omega)]
  simp only [abortIf,decide_eq_true_eq,if_neg (show ¬ data.length < 6 by omega),hsame,ne_eq,not_true_eq_false,if_false,
    ok_bind]

end Handlers

-- A length in the header that is not the length received ends the process; nothing else does.
theorem handleRequest_cases (hfew : (foreachHash p.stats).length < 2 ^ 32) :
    (tag = messengerManagementRequest ∧ 6 ≤ data.length ∧ (be32 data 2).toNat ≠ data.length ∧
      handleRequest p clock tag data = .error .aborted) ∨
    (¬ (tag = messengerManagementRequest ∧ 6 ≤ data.length ∧ (be32 data 2).toNat ≠ data.length) ∧
      ∃ p' outcome, handleRequest p clock tag data = .ok (p',outcome)) := by
  by_cases hbad : tag = messengerManagementRequest ∧ 6 ≤ data.length ∧ (be32 data 2).toNat ≠ data.length
  · obtain ⟨htag,hlong,hne⟩ := hbad
    refine .inl ⟨htag,hlong,hne,?_⟩
    rw [handleRequest,if_pos htag,if_neg (by omega),handleManagementRequest,net32_inside (by omega)]
    simp only [abortIf,decide_eq_true_eq,if_neg (show ¬ data.length < 6 by omega),ok_bind]
    rw [if_pos (Ne.symm hne)]
    rfl
  · refine .inr ⟨hbad,?_⟩
    rw [handleRequest]
    split
    · rename_i htag
      split
      · exact ⟨_,_,rfl⟩
      · rename_i hshort
        have hlong : 6 ≤ data.length := Nat.not_lt.mp hshort
        have hsame : (be32 data 2).toNat = data.length := by
          by_contra hne
          exact hbad ⟨htag,hlong,hne⟩
        rw [handleManagementRequest_eq hlong hsame]
        exact dispatch_total hlong hsame hfew
    · exact ⟨_,_,rfl⟩

end Faults

section Tools

variable {p : Process} {clock : Option TimespecN} {rest : Bytes} {type : UInt16} {n : Nat}

theorem handleRequest_sent (hn : n < 2 ^ 32) (hlen : (requestHeader type n ++ rest).length = n) :
    handleRequest p clock messengerManagementRequest (requestHeader type n ++ rest) =
      dispatch p clock (requestHeader type n ++ rest) type := by
  have hlong : 6 ≤ (requestHeader type n ++ rest).length := by
    simp [requestHeader]
    omega
  have htype : be16 (requestHeader type n ++ rest) 0 = type := by rw [requestHeader,List.append_assoc,be16_front]
  have hlength : be32 (requestHeader type n ++ rest) 2 = UInt32.ofNat n := be32_at (toNet16 type) _ rest
  have hsame : (be32 (requestHeader type n ++ rest) 2).toNat = (requestHeader type n ++ rest).length := by
    rw [hlength,toNat_of_lt hn,hlen]
  rw [handleRequest,if_pos rfl,if_neg (by omega),handleManagementRequest_eq hlong hsame,htype]

theorem length_timespec (t : TimespecN) : t.bytes.length = 8 := by simp [TimespecN.bytes]

theorem timespec_read (front rest : Bytes) (t : TimespecN) {off : Nat} (hoff : off = front.length) :
    timespecAt (front ++ t.bytes ++ rest) off = .ok t := by
  subst hoff
  have hsec : (net32 (front ++ t.bytes ++ rest) front.length : Run Empty UInt32) = .ok t.tvSec := by
    have h := net32_at front (toNet32 t.tvNsec ++ rest) t.tvSec rfl
    simpa [TimespecN.bytes] using h
  have hnsec : (net32 (front ++ t.bytes ++ rest) (front.length + 4) : Run Empty UInt32) = .ok t.tvNsec := by
    have hfront : front.length + 4 = (front ++ toNet32 t.tvSec).length := by simp
    have h := net32_at (front ++ toNet32 t.tvSec) rest t.tvNsec hfront
    simpa [TimespecN.bytes] using h
  rw [timespecAt,hsec,ok_bind,hnsec]
  rfl

theorem echo_answered (p : Process) (clock : Option TimespecN) (sent : TimespecN) :
    ∃ data, handleRequest p clock messengerManagementRequest (sendEchoRequest sent) = .ok (p,.reply data) ∧
      echoReply messengerManagementReply data =
        .ok (match clock with
          | some now => .echo sent now
          | none => .failed) := by
  have hlen : (sendEchoRequest sent).length = 14 := by simp [sendEchoRequest,requestHeader,length_timespec]
  have hload : (load (sendEchoRequest sent) 6 8 : Run Empty Bytes) = .ok sent.bytes := by
    rw [load_ok (by omega),sendEchoRequest,slice_append_right 8 (by simp [requestHeader])]
    exact congrArg Except.ok (slice_whole (length_timespec sent))
  have hrun : handleRequest p clock messengerManagementRequest (sendEchoRequest sent) =
      .ok (p,.reply (replyHeader managementEchoReply (statusOf clock.isSome) 24 ++ sent.bytes ++
        (clock.getD ⟨0,0⟩).bytes)) := by
    rw [sendEchoRequest,handleRequest_sent (by decide) hlen,dispatch,if_pos rfl,if_neg (by rw [not_not]; exact hlen),
      handleEchoRequest,checked_header (by decide) (by decide),ok_bind]
    rw [sendEchoRequest] at hload
    rw [hload]
    rfl
  refine ⟨_,hrun,?_⟩
  have hwhole : (replyHeader managementEchoReply (statusOf clock.isSome) 24 ++
      (sent.bytes ++ (clock.getD ⟨0,0⟩).bytes)).length = 24 := by
    simp [replyHeader,length_timespec]
  rw [echoReply,List.append_assoc,reply_status (by decide) (by simpa using hwhole) hwhole,ok_bind]
  cases clock with
  | none => rfl
  | some now =>
    have hdone : statusOf (some now).isSome = managementRequestSucceeded := rfl
    rw [if_neg (not_not.mpr hdone),← List.append_assoc,timespec_read _ _ _ (by simp [replyHeader]),ok_bind]
    have hfront : 16 = (replyHeader managementEchoReply (statusOf true) 24 ++ sent.bytes).length := by
      simp [replyHeader,length_timespec]
    have hlast := timespec_read (replyHeader managementEchoReply (statusOf true) 24 ++ sent.bytes) [] now hfront
    rw [List.append_nil] at hlast
    have hnow : timespecAt (replyHeader managementEchoReply (statusOf (some now).isSome) 24 ++ sent.bytes ++
        ((some now).getD ⟨0,0⟩).bytes) 16 = .ok now := hlast
    rw [hnow]
    rfl

theorem level_sent {level : Bytes} (hnul : 0 ∉ level) (hshort : level.length < loggingLevelStrLength) :
    ∃ request, (store (sendSetLoggingLevelRequest level) 17 [0] : Run Empty Bytes) = .ok request ∧
      stringAt request 6 = .ok level := by
  simp only [loggingLevelStrLength] at hshort
  have hpad : strncpy level loggingLevelStrLength = level ++ List.replicate (11 - level.length) 0 ++ [0] := by
    rw [strncpy,List.take_of_length_le (by simp only [loggingLevelStrLength]; omega),List.append_assoc,
      ← List.replicate_succ',loggingLevelStrLength]
    congr 2
    omega
  have hfront : (requestHeader managementSetLoggingLevelRequest 18 ++ (level ++ List.replicate (11 - level.length) 0)).length =
      17 := by
    simp [requestHeader]
    omega
  have hstore := store_append (ε := Empty)
    (requestHeader managementSetLoggingLevelRequest 18 ++ (level ++ List.replicate (11 - level.length) 0)) [0] [] [0] rfl
  rw [hfront,List.append_nil] at hstore
  have hwhole : sendSetLoggingLevelRequest level =
      requestHeader managementSetLoggingLevelRequest 18 ++ (level ++ List.replicate (11 - level.length) 0) ++ [0] := by
    rw [sendSetLoggingLevelRequest,hpad,← List.append_assoc]
    rfl
  rw [hwhole]
  refine ⟨_,hstore,?_⟩
  have hdrop : (requestHeader managementSetLoggingLevelRequest 18 ++ (level ++ List.replicate (11 - level.length) 0) ++
      [0] : Bytes).drop 6 = level ++ (List.replicate (11 - level.length) 0 ++ [0]) := by
    rw [List.append_assoc,List.drop_append_of_le_length (by simp [requestHeader])]
    simp [requestHeader]
  have hzeros : List.replicate (11 - level.length) (0 : UInt8) ++ [0] = 0 :: List.replicate (11 - level.length) 0 :=
    List.replicate_succ'.symm
  rw [stringAt,hdrop,if_pos (by simp),hzeros,text,List.takeWhile_append_of_pos,List.takeWhile_cons_of_neg,
    List.append_nil]
  · simp
  · intro b hb
    simpa using fun h : b = 0 => hnul (h ▸ hb)

theorem level_answered (p : Process) (clock : Option TimespecN) {level : Bytes} (hnul : 0 ∉ level)
    (hshort : level.length < loggingLevelStrLength) :
    ∃ p' data, handleRequest p clock messengerManagementRequest (sendSetLoggingLevelRequest level) = .ok (p',.reply data) ∧
      p' = { p with level := (priorityValueFrom (levelText level)).getD p.level } ∧
      setLoggingLevelReply messengerManagementReply data =
        .ok (if (priorityValueFrom (levelText level)).isSome then .levelSet else .failed) := by
  obtain ⟨request,hstore,hlevel⟩ := level_sent hnul hshort
  have hlen : (sendSetLoggingLevelRequest level).length = 18 := by
    simp only [loggingLevelStrLength] at hshort
    simp [sendSetLoggingLevelRequest,requestHeader,strncpy,loggingLevelStrLength]
    omega
  have hdone : ∀ status, setLoggingLevelReply messengerManagementReply
      (replyHeader managementSetLoggingLevelReply status 8) =
        .ok (if status = managementRequestSucceeded then .levelSet else .failed) := by
    intro status
    have hstatus : replyStatus messengerManagementReply (replyHeader managementSetLoggingLevelReply status 8 ++ [])
        managementSetLoggingLevelReply true = .ok status := reply_status (by decide) rfl (by simp [replyHeader])
    rw [List.append_nil] at hstatus
    have hfits : decide ((replyHeader managementSetLoggingLevelReply status 8).length = 8) = true := by
      simp [replyHeader]
    rw [setLoggingLevelReply,hfits,hstatus]
    rfl
  have hend : (store (sendSetLoggingLevelRequest level) (6 + (loggingLevelStrLength - 1)) [0] : Run Empty Bytes) =
      .ok request := hstore
  have hrun : handleRequest p clock messengerManagementRequest (sendSetLoggingLevelRequest level) =
      handleSetLoggingLevelRequest p (sendSetLoggingLevelRequest level) := by
    rw [sendSetLoggingLevelRequest,handleRequest_sent (by decide) hlen,dispatch,if_neg (by decide),if_pos rfl,
      if_neg (by rw [not_not]; exact hlen)]
  rw [hrun,handleSetLoggingLevelRequest]
  have hchecked : checked (sendSetLoggingLevelRequest level) managementSetLoggingLevelRequest
      (· = 6 + loggingLevelStrLength) = .ok () := checked_header (by decide) (by decide)
  rw [hchecked,ok_bind,hend,ok_bind,hlevel,ok_bind]
  cases priorityValueFrom (levelText level) with
  | none => exact ⟨_,_,rfl,rfl,hdone _⟩
  | some value => exact ⟨_,_,rfl,rfl,hdone _⟩

theorem application_replied (status : UInt8) (applicationId : UInt32) {data : Bytes} (hlen : 12 + data.length < 2 ^ 32) :
    applicationReply messengerManagementReply (createManagementApplicationReply status applicationId data) =
      .ok (.application (status = managementRequestSucceeded) applicationId data) := by
  have hwhole : (replyHeader managementApplicationReply status (12 + data.length) ++
      (toNet32 applicationId ++ data)).length = 12 + data.length := by
    simp [replyHeader]
    omega
  have hid : (net32 (replyHeader managementApplicationReply status (12 + data.length) ++ (toNet32 applicationId ++ data)) 8 :
      Run Empty UInt32) = .ok applicationId := by
    rw [← List.append_assoc]
    exact net32_at _ _ _ (by simp [replyHeader])
  have hrest : (replyHeader managementApplicationReply status (12 + data.length) ++
      (toNet32 applicationId ++ data)).drop 12 = data := by
    rw [← List.append_assoc,List.drop_left' (by simp [replyHeader])]
  rw [applicationReply,createManagementApplicationReply,List.append_assoc,
    reply_status hlen (by rw [hwhole]; simp) hwhole,ok_bind,hid,ok_bind,hrest]
  rfl

theorem application_answered (p : Process) (clock : Option TimespecN) (applicationId : UInt32) {data : Bytes}
    (hlen : 10 + data.length < 2 ^ 32) :
    if p.application then
      handleRequest p clock messengerManagementRequest (sendApplicationRequest applicationId data) =
        .ok (p,.applicationCallback applicationId (if data = [] then none else some data))
    else ∃ reply, handleRequest p clock messengerManagementRequest (sendApplicationRequest applicationId data) =
        .ok (p,.reply reply) ∧
      applicationReply messengerManagementReply reply = .ok (.application false applicationId []) := by
  have hwhole : (requestHeader managementApplicationRequest (10 + data.length) ++
      (toNet32 applicationId ++ data)).length = 10 + data.length := by
    simp [requestHeader]
    omega
  have hrun : handleRequest p clock messengerManagementRequest (sendApplicationRequest applicationId data) = (do
      let outcome ← handleApplicationRequest p (sendApplicationRequest applicationId data)
      pure (p,outcome)) := by
    rw [sendApplicationRequest,List.append_assoc,handleRequest_sent hlen hwhole,dispatch,if_neg (by decide),
      if_neg (by decide),if_neg (by decide),if_pos rfl,if_neg (by omega)]
  have hchecked : checked (sendApplicationRequest applicationId data) managementApplicationRequest (10 ≤ ·) = .ok () := by
    rw [sendApplicationRequest,List.append_assoc]
    exact checked_header hlen (by simp)
  have hid : (net32 (sendApplicationRequest applicationId data) 6 : Run Empty UInt32) = .ok applicationId := by
    rw [sendApplicationRequest]
    exact net32_at _ _ _ (by simp [requestHeader])
  obtain ⟨length,hlength,hval⟩ := request_length managementApplicationRequest (toNet32 applicationId ++ data) hlen
  rw [← List.append_assoc] at hlength
  have hload : (load (sendApplicationRequest applicationId data) 10 (length.toNat - 10) : Run Empty Bytes) = .ok data := by
    have hn : length.toNat - 10 = data.length := by omega
    rw [hn,load_ok (by simp [sendApplicationRequest,requestHeader]; omega),sendApplicationRequest,
      slice_append_right _ (by simp [requestHeader])]
    refine congrArg Except.ok ?_
    rw [show 10 - (requestHeader managementApplicationRequest (10 + data.length) ++ toNet32 applicationId).length = 0 by
      simp [requestHeader]]
    exact slice_whole rfl
  rw [hrun,handleApplicationRequest,hchecked,ok_bind,hid,ok_bind]
  split
  · have hsent : (net32 (sendApplicationRequest applicationId data) 2 : Run Empty UInt32) = .ok length := hlength
    rw [hsent,ok_bind,hload]
    rfl
  · exact ⟨_,rfl,application_replied managementRequestFailed applicationId (by decide)⟩

end Tools

-- Only a wrong length ends the process; every tool is told what its request has done.
theorem management_requests (p : Process) (clock : Option TimespecN) (hfew : (foreachHash p.stats).length < 2 ^ 32) :
    (∀ tag data, handleRequest p clock tag data = .error .aborted ↔
      tag = messengerManagementRequest ∧ 6 ≤ data.length ∧ (be32 data 2).toNat ≠ data.length) ∧
    (∀ tag data, handleRequest p clock tag data ≠ .error .outOfBounds) ∧
    (∀ sent, ∃ data, handleRequest p clock messengerManagementRequest (sendEchoRequest sent) = .ok (p,.reply data) ∧
      echoReply messengerManagementReply data =
        .ok (match clock with
          | some now => .echo sent now
          | none => .failed)) ∧
    (∀ level, 0 ∉ level → level.length < loggingLevelStrLength → ∃ p' data,
      handleRequest p clock messengerManagementRequest (sendSetLoggingLevelRequest level) = .ok (p',.reply data) ∧
      p' = { p with level := (priorityValueFrom (levelText level)).getD p.level } ∧
      setLoggingLevelReply messengerManagementReply data =
        .ok (if (priorityValueFrom (levelText level)).isSome then .levelSet else .failed)) ∧
    (∀ applicationId data, 10 + data.length < 2 ^ 32 →
      if p.application then
        handleRequest p clock messengerManagementRequest (sendApplicationRequest applicationId data) =
          .ok (p,.applicationCallback applicationId (if data = [] then none else some data))
      else ∃ reply, handleRequest p clock messengerManagementRequest (sendApplicationRequest applicationId data) =
          .ok (p,.reply reply) ∧
        applicationReply messengerManagementReply reply = .ok (.application false applicationId [])) ∧
    ∀ status applicationId data, 12 + data.length < 2 ^ 32 →
      applicationReply messengerManagementReply (createManagementApplicationReply status applicationId data) =
        .ok (.application (status = managementRequestSucceeded) applicationId data) := by
  refine ⟨fun tag data => ?_,fun tag data => ?_,echo_answered p clock,
    fun level hnul hshort => level_answered p clock hnul hshort,
    fun applicationId data hlen => application_answered p clock applicationId hlen,
    fun status applicationId data hlen => application_replied status applicationId hlen⟩
  · rcases handleRequest_cases hfew with
      ⟨htag,hlong,hne,hrun⟩ | ⟨hgood,p',outcome,hrun⟩
    · exact iff_of_true hrun ⟨htag,hlong,hne⟩
    · exact iff_of_false (by rw [hrun]; simp) hgood
  · rcases handleRequest_cases hfew with
      ⟨_,_,_,hrun⟩ | ⟨_,p',outcome,hrun⟩
    · rw [hrun]
      simp
    · rw [hrun]
      simp

def helloKey : PacketinFilter.CString := ⟨[104,105],by simp⟩

-- A process that has counted a key, with the level info.
def counting : Process := ⟨6,countUp (addStatEntry helloKey initStat).2 helloKey.bytes,true⟩

theorem management_requests_counting : (foreachHash counting.stats).length = 1 ∧
    (∃ data, handleRequest counting (some ⟨9,0⟩) messengerManagementRequest (sendEchoRequest ⟨7,5⟩) =
        .ok (counting,.reply data) ∧
      echoReply messengerManagementReply data = .ok (.echo ⟨7,5⟩ ⟨9,0⟩)) ∧
    ∃ data, handleRequest counting (some ⟨9,0⟩) messengerManagementRequest
        (sendSetLoggingLevelRequest [100,101,98,117,103]) = .ok ({ counting with level := 7 },.reply data) ∧
      setLoggingLevelReply messengerManagementReply data = .ok .levelSet := by
  have hone : (foreachHash counting.stats).length = 1 := by decide
  obtain ⟨_,_,hecho,hlevel,_⟩ := management_requests counting (some ⟨9,0⟩) (by rw [hone]; decide)
  obtain ⟨p',data,hrun,rfl,hshown⟩ := hlevel [100,101,98,117,103] (by decide) (by decide)
  exact ⟨hone,hecho ⟨7,5⟩,data,hrun,hshown⟩

end Trema.Management
