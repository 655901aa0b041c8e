import Trema.EventForward.Bodies

namespace Trema.EventForward

open Library
open Management (managementRequestSucceeded managementRequestFailed managementApplicationReply)
open OpenFlow (Exec abortIf subSize)
open PacketinFilter (CString)
open SecureChannel
open Table (appendToTail)

structure OperationResult where
  result : EfiResult
  services : List CString
deriving DecidableEq

-- One turn of the loop advances next_name by a byte at least.
def collectNames (m : Bytes) (stop expected : Nat) : Nat → Nat → List CString → Exec (List CString)
  | 0, next, services => if next < stop then .error .outOfFuel else pure services
  | fuel + 1, next, services =>
    if next < stop then do
      let name ← stringAt m next
      let services := if name.bytes ≠ [] ∧ services.length < expected then services ++ [name] else services
      collectNames m stop expected fuel (next + name.bytes.length + 1) services
    else pure services

-- The reply lies in the memory that starts with it; its list is terminated in place, after its end.
def handleEventForwardOperationReply (memory : Bytes) (length : Nat) : Exec OperationResult := do
  let nServices ← net32 memory 16
  let status ← byteAt memory 2
  if status = managementRequestFailed then pure ⟨.failed,[]⟩
  else do
    let result ← byteAt memory 13
    if result ≠ EfiResult.succeeded.code then pure ⟨.failed,[]⟩
    else do
      let serviceListLen := subSize length 20
      let memory ← store memory (20 + serviceListLen) [0]
      let services ← collectNames memory (20 + serviceListLen) nServices.toNat serviceListLen 20 []
      pure ⟨.succeeded,services⟩

section Replies

variable {m rest : Bytes} {names services : List CString} {next stop expected fuel : Nat}

theorem collectNames_joined (hm : m.drop next = joined names ++ rest) (hstop : stop = next + (joined names).length)
    (hne : ∀ s ∈ names, s.bytes ≠ []) (hroom : services.length + names.length ≤ expected)
    (hfuel : (joined names).length ≤ fuel) :
    collectNames m stop expected fuel next services = .ok (services ++ names) := by
  induction names generalizing next services fuel with
  | nil =>
    have hend : ¬ next < stop := by
      rw [hstop]
      simp [joined]
    cases fuel <;> simp [collectNames,hend,pure_eq_ok]
  | cons s names ih =>
    have hlen : (joined (s :: names)).length = s.bytes.length + 1 + (joined names).length := by
      rw [joined_cons,List.length_append,List.length_cons]
      omega
    rw [joined_cons,List.append_assoc,List.cons_append] at hm
    obtain ⟨fuel,rfl⟩ : ∃ n, fuel = n + 1 := Nat.exists_eq_add_of_le' (by omega)
    have hnext : m.drop (next + s.bytes.length + 1) = joined names ++ rest := by
      refine drop_succ_of_cons (c := 0) ?_
      rw [← List.drop_drop,hm,List.drop_left]
    have hlt : services.length < expected := by
      rw [List.length_cons] at hroom
      omega
    rw [collectNames,if_pos (by omega),stringAt_drop s hm,ok_bind]
    simp only [hne s (by simp),hlt,ne_eq,not_false_eq_true,and_self,if_true]
    rw [ih hnext (by omega) (fun t ht => hne t (List.mem_cons_of_mem _ ht)) (by
      rw [List.length_append,List.length_singleton]
      rw [List.length_cons] at hroom
      omega) (by omega),List.append_assoc,List.singleton_append]

variable {id : UInt32} {type : UInt8} {result : EfiResult} {after : UInt8}

def replyImage (id : UInt32) (type : UInt8) (result : EfiResult) (names : List CString) : Bytes :=
  createManagementApplicationReply managementRequestSucceeded id (operationImage type result.code names)

theorem replyImage_eq (id : UInt32) (type : UInt8) (result : EfiResult) (names : List CString) :
    ∃ head : Bytes, head.length = 12 ∧ hostByte head 2 = managementRequestSucceeded ∧ replyImage id type result names =
      head ++ ([type,result.code,0,0] ++ toNet32 (UInt32.ofNat names.length)) ++ joined names := by
  refine ⟨toNet16 managementApplicationReply ++ [managementRequestSucceeded,0] ++
    toNet32 (UInt32.ofNat (12 + (operationImage type result.code names).length)) ++ toNet32 id,by simp,?_,?_⟩
  · rw [hostByte,List.append_assoc,List.append_assoc,slice_append_right _ (by simp),length_toNet16,
      slice_append_left (by simp)]
    exact ofNat_leNat_byte _
  · simp [replyImage,createManagementApplicationReply,operationImage]

theorem length_replyImage (id : UInt32) (type : UInt8) (result : EfiResult) (names : List CString) :
    (replyImage id type result names).length = 20 + (joined names).length := by
  obtain ⟨head,hhead,_,himage⟩ := replyImage_eq id type result names
  rw [himage]
  simp [hhead]
  omega

theorem hostByte_left {a b : Bytes} {off : Nat} (h : off + 1 ≤ a.length) : hostByte (a ++ b) off = hostByte a off := by
  rw [hostByte,slice_append_left h,hostByte]

theorem handleReply_image (hcount : names.length < 4294967296) (hne : ∀ s ∈ names, s.bytes ≠ []) :
    handleEventForwardOperationReply (replyImage id type result names ++ after :: rest)
      (replyImage id type result names).length =
        .ok (if result = .succeeded then ⟨.succeeded,names⟩ else ⟨.failed,[]⟩) := by
  have hlength := length_replyImage id type result names
  obtain ⟨head,hhead,hstatus,himage⟩ := replyImage_eq id type result names
  have hmem : (replyImage id type result names ++ after :: rest).length =
      20 + (joined names).length + (rest.length + 1) := by
    rw [List.length_append,hlength,List.length_cons]
  have hn : be32 (replyImage id type result names ++ after :: rest) 16 = UInt32.ofNat names.length := by
    rw [himage,be32,List.append_assoc,List.append_assoc,slice_append_right _ (by omega),hhead,List.append_assoc,
      slice_append_right _ (by simp)]
    simp only [List.length_cons,List.length_nil]
    rw [slice_append_left (by simp),slice_whole (by simp),ofNat_beNat_toNet32]
  have hs : hostByte (replyImage id type result names ++ after :: rest) 2 = managementRequestSucceeded := by
    rw [himage,List.append_assoc,List.append_assoc,hostByte_left (by omega),hstatus]
  have hr : hostByte (replyImage id type result names ++ after :: rest) 13 = result.code := by
    rw [himage,hostByte,List.append_assoc,List.append_assoc,slice_append_right _ (by omega),hhead]
    exact ofNat_leNat_byte _
  rw [handleEventForwardOperationReply,net32_inside (by omega),ok_bind,byteAt_inside (by omega),ok_bind,hs,
    if_neg (by decide),byteAt_inside (by omega),ok_bind,hr,hn]
  cases result with
  | failed => rfl
  | succeeded =>
    have hlist : subSize (replyImage id type .succeeded names).length 20 = (joined names).length := by
      rw [hlength,OpenFlow.subSize_of_le (Nat.le_add_right _ _),Nat.add_sub_cancel_left]
    have hstore : (store (replyImage id type .succeeded names ++ after :: rest) (20 + (joined names).length) [0] :
        Exec Bytes) = .ok (replyImage id type .succeeded names ++ 0 :: rest) := by
      have happend : (store (replyImage id type .succeeded names ++ [after] ++ rest)
          (replyImage id type .succeeded names).length [0] : Exec Bytes) = _ := store_append _ [after] rest [0] rfl
      rw [hlength] at happend
      simpa using happend
    have hdrop : (replyImage id type .succeeded names ++ 0 :: rest).drop 20 = joined names ++ 0 :: rest := by
      have hfront : (head ++ ([type,EfiResult.succeeded.code,0,0] ++ toNet32 (UInt32.ofNat names.length))).length = 20 := by
        simp [hhead]
      rw [himage,List.append_assoc,← hfront,List.drop_left]
    have hexpected : (UInt32.ofNat names.length).toNat = names.length := Nat.mod_eq_of_lt hcount
    rw [if_neg (by simp)]
    simp only [hlist,hstore,ok_bind,hexpected]
    rw [collectNames_joined hdrop rfl hne (by simp) le_rfl]
    rfl

end Replies

section RoundTrips

variable {heap : Nat → UInt8} {names : List CString} {t : EventType}

theorem wellFormed_image (hcount : names.length < 4294967296) (hne : ∀ s ∈ names, s.bytes ≠ []) :
    WellFormed t names (operationImage t.code 0 names) :=
  ⟨⟨[0,0,0],rfl,by simp [operationImage]⟩,hcount,hne⟩

-- What the switch daemon makes of a SET request's body.
def decodedRequest (body : Bytes) : Exec (Option EventType × List CString) := do
  let nServices ← net32 body 4
  let type ← byteAt body 0
  let names ← managementEventForwardEntriesSet body nServices
  pure (EventType.ofCode type,names)

theorem decodedRequest_image (hcount : names.length < 4294967296) (hne : ∀ s ∈ names, s.bytes ≠ []) :
    decodedRequest (operationImage t.code 0 names) = .ok (some t,names) := by
  have h := wellFormed_image (t := t) hcount hne
  rw [decodedRequest,h.nServices,ok_bind,h.type,ok_bind,entriesSet_wellFormed h,ofCode_code]
  rfl

theorem service_names_round_trip (hcount : names.length < 4294967296) (hne : ∀ s ∈ names, s.bytes ≠ []) :
    (∃ b, createEventForwardOperationRequest heap none t.code names = .ok b ∧
      decodedRequest b.bytes = .ok (some t,names)) ∧
    (∀ header : Buffer, header.Inside → ∃ b, createEventForwardOperationRequest heap (some header) t.code names = .ok b ∧
      b.bytes.take header.length = header.bytes ∧ decodedRequest (b.bytes.drop header.length) = .ok (some t,names)) ∧
    ∀ (result : EfiResult) (id : UInt32), ∃ b, createEventForwardOperationReply heap t.code result.code names = .ok b ∧
      EventType.ofCode (hostByte b.bytes 0) = some t ∧
      ∀ after rest, handleEventForwardOperationReply
        (createManagementApplicationReply managementRequestSucceeded id b.bytes ++ after :: rest)
        (createManagementApplicationReply managementRequestSucceeded id b.bytes).length =
          .ok (if result = .succeeded then ⟨.succeeded,names⟩ else ⟨.failed,[]⟩) := by
  refine ⟨?_,fun header hheader => ?_,fun result id => ?_⟩
  · obtain ⟨b,hcreate,_,hbytes⟩ := createEventForwardOperationRequest_null heap t.code names
    exact ⟨b,hcreate,by rw [hbytes,decodedRequest_image hcount hne]⟩
  · obtain ⟨b,hcreate,_,hbytes⟩ := createEventForwardOperationRequest_after heap t.code names hheader
    refine ⟨b,hcreate,?_,?_⟩
    · rw [hbytes,← hheader.length_bytes,List.take_left]
    · rw [hbytes,← hheader.length_bytes,List.drop_left,decodedRequest_image hcount hne]
  · obtain ⟨b,hcreate,_,hbytes⟩ := createEventForwardOperationReply_spec heap t.code result.code names
    refine ⟨b,hcreate,?_,fun after rest => ?_⟩
    · have htype : hostByte (operationImage t.code result.code names) 0 = t.code := ofNat_leNat_byte _
      rw [hbytes,htype,ofCode_code]
    · rw [hbytes]
      exact handleReply_image hcount hne

-- Three names that do not fit the forty bytes the buffer starts with.
def longNames : List CString := [⟨List.replicate 20 97,by simp⟩,⟨List.replicate 20 98,by simp⟩,firstApp]

theorem service_names_round_trip_three :
    (∃ b, createEventForwardOperationRequest (fun _ => 0) none EventType.packetIn.code longNames = .ok b ∧
      decodedRequest b.bytes = .ok (some .packetIn,longNames)) ∧
    ∃ b, createEventForwardOperationReply (fun _ => 0) EventType.packetIn.code EfiResult.succeeded.code longNames = .ok b ∧
      handleEventForwardOperationReply
        (createManagementApplicationReply managementRequestSucceeded 0 b.bytes ++ [0])
        (createManagementApplicationReply managementRequestSucceeded 0 b.bytes).length = .ok ⟨.succeeded,longNames⟩ := by
  obtain ⟨hrequest,_,hreply⟩ := @service_names_round_trip (fun _ => 0) longNames .packetIn (by decide)
    (by simp [longNames,firstApp])
  obtain ⟨b,hcreate,_,hdecoded⟩ := hreply .succeeded 0
  exact ⟨hrequest,b,hcreate,hdecoded 0 []⟩

theorem decodedRequest_wrapped (hcount : UInt32.ofNat names.length = 0) (hsome : names ≠ []) :
    decodedRequest (operationImage t.code 0 names) = .error .outOfBounds := by
  have hhead : ([t.code,0,0,0] ++ toNet32 (UInt32.ofNat names.length)).length = 8 := by simp
  have hdrop : (operationImage t.code 0 names).drop 8 = joined names := by
    rw [operationImage,← hhead,List.drop_left]
  have hlen : 8 ≤ (operationImage t.code 0 names).length := by
    rw [operationImage,List.length_append,hhead]
    omega
  have hn : be32 (operationImage t.code 0 names) 4 = 0 := by
    rw [operationImage,List.append_assoc,be32,slice_append_right _ (by simp)]
    simp only [List.length_cons,List.length_nil]
    rw [slice_append_left (by simp),slice_whole (by simp),ofNat_beNat_toNet32,hcount]
  have hzero : 0 ∈ joined names := by
    obtain ⟨s,rest,rfl⟩ := List.exists_cons_of_ne_nil hsome
    simp [joined_cons]
  have hset : managementEventForwardEntriesSet (operationImage t.code 0 names) 0 = .error .outOfBounds := by
    rw [entriesSet_zero hlen,hdrop,if_pos hzero]
  rw [decodedRequest,net32_inside (by omega),ok_bind,byteAt_inside (by omega),ok_bind,hn,hset]
  rfl

theorem request_wrapped {b : Buffer} (hcount : UInt32.ofNat names.length = 0) (hsome : names ≠ [])
    (hcreate : createEventForwardOperationRequest heap none t.code names = .ok b) :
    decodedRequest b.bytes = .error .outOfBounds := by
  obtain ⟨b',hcreate',_,hbytes⟩ := createEventForwardOperationRequest_null heap t.code names
  rw [hcreate] at hcreate'
  injection hcreate' with hb
  rw [hb,hbytes,decodedRequest_wrapped hcount hsome]

-- 2^32 names make a count of 0, and a failed reply is decoded without its names.
theorem service_names_lost :
    (∀ b, createEventForwardOperationRequest (fun _ => 0) none EventType.packetIn.code
      (List.replicate 4294967296 firstApp) = .ok b → decodedRequest b.bytes = .error .outOfBounds) ∧
    ∃ b, createEventForwardOperationReply (fun _ => 0) EventType.packetIn.code EfiResult.failed.code [firstApp] = .ok b ∧
      handleEventForwardOperationReply
        (createManagementApplicationReply managementRequestSucceeded 0 b.bytes ++ [0])
        (createManagementApplicationReply managementRequestSucceeded 0 b.bytes).length = .ok ⟨.failed,[]⟩ := by
  constructor
  · refine fun b => request_wrapped ?_ ?_
    · rw [List.length_replicate]
      decide
    · exact List.ne_nil_of_length_pos (by rw [List.length_replicate]; decide)
  · obtain ⟨b,hcreate,_,hbytes⟩ := createEventForwardOperationReply_spec (fun _ => 0)
      EventType.packetIn.code EfiResult.failed.code [firstApp]
    refine ⟨b,hcreate,?_⟩
    rw [hbytes]
    exact handleReply_image (by decide) (by simp [firstApp])

end RoundTrips

end Trema.EventForward
