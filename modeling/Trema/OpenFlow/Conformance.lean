import Trema.OpenFlow.Accept

namespace Trema.OpenFlow

open Library Layout

section Built

theorem length_convertBlock_block (call : ActionCall) :
    (convertBlock .host call.block).length = call.block.length := by
  have htype : host16 call.block 0 = call.type.code := (host16_actionHeader _ _ _).1
  have hfits := (length_payload call).1
  rw [← length_block] at hfits
  have hread := (readEnd_le_size (actionFields call.type)).trans hfits
  have htype' : Order.host.u16 call.block 0 = call.type.code := htype
  simp only [convertBlock,htype',ActionType.ofCode_code]
  rw [actionImage,List.length_append,length_cells hread,List.length_drop]
  omega

theorem built_calls {P : ActionCall → Prop} {actions : Option OpenflowActions}
    (h : ∀ a, actions = some a → ∃ calls, buildActions calls = .ok a ∧ ∀ call ∈ calls, P call)
    (hs : (netActions actions).length ≤ 65535) :
    ∃ calls : List ActionCall, actionList actions = calls.map ActionCall.block ∧
      (∀ a, actions = some a → a = ⟨calls.length,calls.map ActionCall.block⟩) ∧
      ∀ call ∈ calls, P call ∧ call.block.length < 65536 := by
  cases actions with
  | none => exact ⟨[],rfl,by simp,by simp⟩
  | some a =>
    obtain ⟨calls,hbuild,hall⟩ := h a rfl
    have ha := buildActions_eq_ok hbuild
    subst ha
    refine ⟨calls,rfl,by simp,fun call hcall => ⟨hall call hcall,?_⟩⟩
    have hmem : convertBlock .host call.block ∈
        (calls.map ActionCall.block).map (convertBlock .host) :=
      List.mem_map_of_mem (List.mem_map_of_mem hcall)
    have hle := List.Sublist.length_le (List.sublist_flatten_of_mem hmem)
    rw [length_convertBlock_block] at hle
    exact Nat.lt_succ_of_le (hle.trans hs)

theorem built_allowed {actions : Option OpenflowActions} (h : Built actions)
    (hs : (netActions actions).length ≤ 65535) : ∀ b ∈ actionList actions, AllowedAction b := by
  obtain ⟨calls,hlist,_,hall⟩ := built_calls h hs
  intro b hb
  rw [hlist] at hb
  obtain ⟨call,hcall,rfl⟩ := List.mem_map.mp hb
  obtain ⟨hallowed,hlt⟩ := hall call hcall
  obtain ⟨hcheck,hvendor⟩ := actionCheck_block hallowed
  exact ⟨call.type,actionBlock_block hlt,hcheck,hvendor⟩

theorem AllowedAction.isAction {b : Bytes} (h : AllowedAction b) : IsAction .host b :=
  ⟨h.choose,h.choose_spec.1⟩

theorem encodable_of_allowed {c : Construction} (ha : c.Allowed) (hs : c.size ≤ 65535) :
    c.Encodable := by
  cases c with
  | packetOut bufferId inPort actions data =>
    simp only [Construction.size,Construction.body,List.length_append] at hs
    exact fun b hb => (built_allowed ha.2 (by omega) b hb).isAction
  | flowMod mtch cookie command idleTimeout hardTimeout priority bufferId outPort flags actions =>
    simp only [Construction.size,Construction.body,List.length_append] at hs
    obtain ⟨_,_,_,_,_,hbuilt⟩ := ha
    exact fun b hb => (built_allowed hbuilt (by omega) b hb).isAction
  | descStatsReply flags mfrDesc hwDesc swDesc serialNum dpDesc => exact ha.2
  | _ => trivial

end Built

section Validators

variable {m : Bytes}

theorem validateSized_ok {type : OfpType} {lo : Nat} (hh : Headed m type lo 65535) :
    validateSized type lo m = .ok () := by
  have hfits := hh.fits
  rw [validateSized,hh.validated,ok_bind,net16_inside (by omega),ok_bind,hh.length]
  exact rejectIf_eq_ok.mpr (by simp)

theorem validateSwitchConfig_ok {type : OfpType} (hh : Headed m type 12 12)
    (hflags : be16 m 8 ≤ ofpcFragMask) : validateSwitchConfig type m = .ok () := by
  have hmin := hh.lower
  rw [validateSwitchConfig,hh.validated,ok_bind,net16_inside (by omega),ok_bind]
  exact rejectIf_eq_ok.mpr (UInt16.not_lt.mpr hflags)

theorem validateFeaturesReply_ok {ports : List PhyPort} (hh : Headed m .featuresReply 32 65535)
    (htables : hostByte m 20 ≠ 0) (hlen : m.length = 32 + 48 * ports.length)
    (hm : Holds m 32 (netStructs ports)) (hall : ∀ p ∈ ports, PhyPort.Allowed p) :
    validateFeaturesReply m = .ok () := by
  have hmax := hh.upper
  have hsub : sub16 m.length 32 = 48 * ports.length := by
    rw [sub16_of_le (by omega) (by omega),hlen,Nat.add_sub_cancel_left]
  have hports : validatePhyPorts m 32 ports.length = .ok () :=
    validateEach_ok hm fun port hport q hq => validatePhyPort_ok (hall port hport) hq
  rw [validateFeaturesReply,hh.validated,ok_bind,byteAt_inside (by omega),ok_bind,
    rejectIf,if_neg htables,ok_bind,net16_inside (by omega),ok_bind,hh.length]
  simp only [hsub,Nat.mul_mod_right,Nat.mul_div_cancel_left ports.length (show 0 < 48 by omega),
    hports,ne_eq,not_true_eq_false,rejectIf,if_false,ok_bind,onlyIf]
  split <;> rfl

theorem validatePacketIn_ok (hh : Headed m .packetIn 18 65535)
    (hport : validatePhyPortNo (be16 m 14) = .ok ()) (hreason : hostByte m 16 ≤ ofprAction) :
    validatePacketIn m = .ok () := by
  have hmin := hh.lower
  rw [validatePacketIn,hh.validated,ok_bind,net16_inside (by omega),ok_bind,hport,
    ok_bind,byteAt_inside (by omega),ok_bind]
  exact rejectIf_eq_ok.mpr (UInt8.not_lt.mpr hreason)

theorem ntohMatch_ok {mtch : OfpMatch} {p : Nat} (hm : Holds m p (netMatch mtch)) :
    ∃ b, ntohMatch m p = .ok b ∧ OfpMatch.ofHost b = mtch.unpadded := by
  refine ⟨cells matchFields (netMatch mtch),hm.convert (by rw [length_netMatch]; decide)
    (by simp),?_⟩
  have := ofHost_netMatch mtch []
  rwa [List.append_nil] at this

theorem validateExactPriority_ok {mtch : OfpMatch} {p : Nat} (hin : p + 2 ≤ m.length)
    (h : exactWildcards mtch → be16 m p = uint16Max) :
    validateExactPriority m p mtch.unpadded = .ok () := by
  refine onlyIf_eq_ok.mpr fun hexact => ?_
  rw [net16_inside hin,ok_bind]
  refine rejectIf_eq_ok.mpr ?_
  rw [h hexact,ne_eq,not_not]

theorem validateFlowRemoved_ok {mtch : OfpMatch} (hh : Headed m .flowRemoved 88 88)
    (hm : Holds m 8 (netMatch mtch)) (hmatch : validateMatch mtch = .ok ())
    (hprio : exactWildcards mtch → be16 m 56 = uint16Max) (hreason : hostByte m 58 ≤ ofprrDelete) :
    validateFlowRemoved m = .ok () := by
  have hmin := hh.lower
  obtain ⟨b,hconv,hof⟩ := ntohMatch_ok hm
  rw [validateFlowRemoved,hh.validated,ok_bind,hconv,ok_bind,hof]
  change (validateMatch mtch >>= fun _ => _) = _
  rw [hmatch,ok_bind,validateExactPriority_ok (by omega) hprio,ok_bind,byteAt_inside (by omega),
    ok_bind]
  exact rejectIf_eq_ok.mpr (UInt8.not_lt.mpr hreason)

theorem validatePortStatus_ok {desc : PhyPort} (hh : Headed m .portStatus 64 64)
    (hreason : hostByte m 8 ≤ ofpprModify) (hm : Holds m 16 (cells phyPortFields desc.bytes))
    (hdesc : PhyPort.Allowed desc) : validatePortStatus m = .ok () := by
  have hmin := hh.lower
  rw [validatePortStatus,hh.validated,ok_bind,byteAt_inside (by omega),ok_bind,
    rejectIf,if_neg (UInt8.not_lt.mpr hreason),ok_bind,validatePhyPort_ok hdesc hm]

theorem validatePacketOut_ok {actions : List Bytes} (hh : Headed m .packetOut 16 65535)
    (hport : validatePhyPortNo (be16 m 12) = .ok ())
    (hlen : (be16 m 14).toNat = actions.flatten.length)
    (hall : ∀ b ∈ actions, AllowedAction b)
    (hm : Holds m 16 (concat (convertBlock .host) actions)) :
    Yields (fun n => validatePacketOut n m) (.ok ()) := by
  have hmin := hh.lower
  have hlt := (be16 m 14).toNat_lt
  have hfields : packetOutFields m = .ok actions.flatten.length := by
    rw [packetOutFields,hh.validated,ok_bind,net16_inside (by omega),ok_bind,hport,
      ok_bind,net16_inside (by omega),ok_bind,hlen]
    rfl
  refine (yields_after (fun _ => settled_onlyIf (settled_validateActions _ _ _)) _).mpr
    (.inl ⟨_,hfields,?_⟩)
  exact (yields_onlyIf_actions _ _ _ _).mpr (validateActions_yields hall hm (by omega))

theorem validateFlowMod_ok {mtch : OfpMatch} {actions : List Bytes}
    (hh : Headed m .flowMod 72 65535) (hm : Holds m 8 (netMatch mtch))
    (hmatch : validateMatch mtch = .ok ()) (hcommand : be16 m 56 ≤ ofpfcDeleteStrict)
    (hprio : exactWildcards mtch → be16 m 62 = uint16Max)
    (hport : be16 m 56 = ofpfcDelete ∨ be16 m 56 = ofpfcDeleteStrict → be16 m 68 ≠ ofppNone →
      validatePhyPortNo (be16 m 68) = .ok ())
    (hflags : be16 m 70 &&& ~~~flowModFlags = 0) (hlen : m.length = 72 + actions.flatten.length)
    (hall : ∀ b ∈ actions, AllowedAction b)
    (hacts : Holds m 72 (concat (convertBlock .host) actions)) :
    Yields (fun n => validateFlowMod n m) (.ok ()) := by
  have hmin := hh.lower
  have hmax := hh.upper
  obtain ⟨b,hconv,hof⟩ := ntohMatch_ok hm
  have hout : onlyIf (be16 m 56 = ofpfcDelete ∨ be16 m 56 = ofpfcDeleteStrict) (do
      let outPort ← net16 m 68
      onlyIf (outPort ≠ ofppNone) (validatePhyPortNo outPort)) = .ok () := by
    refine onlyIf_eq_ok.mpr fun hdelete => ?_
    rw [net16_inside (by omega),ok_bind]
    exact onlyIf_eq_ok.mpr (hport hdelete)
  have hoptions : flowModOptions m mtch.unpadded (be16 m 56) = .ok actions.flatten.length := by
    rw [flowModOptions,validateExactPriority_ok (by omega) hprio,ok_bind,hout,ok_bind,
      net16_inside (by omega),ok_bind,rejectIf,if_neg (not_not.mpr hflags),ok_bind,
      net16_inside (by omega),ok_bind,hh.length,sub16_of_le hmin (by omega),hlen,
      Nat.add_sub_cancel_left]
    rfl
  have hfields : flowModFields m = .ok actions.flatten.length := by
    rw [flowModFields,hh.validated,ok_bind,hconv,ok_bind,hof]
    change (validateMatch mtch >>= fun _ => _) = _
    rw [hmatch,ok_bind,net16_inside (by omega),ok_bind,if_neg (UInt16.not_lt.mpr hcommand),hoptions]
  refine (yields_after (fun _ => settled_onlyIf (settled_validateActions _ _ _)) _).mpr
    (.inl ⟨_,hfields,?_⟩)
  exact (yields_onlyIf_actions _ _ _ _).mpr (validateActions_yields hall hacts (by omega))

theorem validatePortMod_ok (hh : Headed m .portMod 32 32)
    (hport : validatePhyPortNo (be16 m 8) = .ok ())
    (hphysical : be16 m 8 ≤ ofppMax ∨ be16 m 8 = ofppLocal)
    (hconfig : be32 m 16 &&& ~~~portConfig = 0) (hmask : be32 m 20 &&& ~~~portConfig = 0)
    (hadvertise : be32 m 24 &&& ~~~portFeatures = 0) : validatePortMod m = .ok () := by
  have hmin := hh.lower
  have hno : ¬ (ofppMax < be16 m 8 ∧ be16 m 8 ≠ ofppLocal) := by
    rintro ⟨hlt,hne⟩
    rcases hphysical with h | h
    · exact UInt16.not_lt.mpr h hlt
    · exact hne h
  rw [validatePortMod,hh.validated,ok_bind,net16_inside (by omega),ok_bind,hport,ok_bind,
    rejectIf,if_neg hno,ok_bind,net32_inside (by omega),ok_bind,rejectIf,
    if_neg (not_not.mpr hconfig),ok_bind,net32_inside (by omega),ok_bind,rejectIf,
    if_neg (not_not.mpr hmask),ok_bind,net32_inside (by omega),ok_bind]
  exact rejectIf_eq_ok.mpr (not_not.mpr hadvertise)

theorem validateStatsRequestOf_ok {type : StatsType} {lo hi : Nat} (hlo : 12 ≤ lo)
    (hh : Headed m .statsRequest lo hi) (htype : be16 m 8 = type.code) (hflags : be16 m 10 = 0) :
    validateStatsRequestOf type lo hi m = .ok () := by
  have hmin := hh.lower
  rw [validateStatsRequestOf,hh.validated,ok_bind,net16_inside (by omega),ok_bind,rejectIf,
    if_neg (not_not.mpr htype),ok_bind,net16_inside (by omega),ok_bind]
  exact rejectIf_eq_ok.mpr (not_not.mpr hflags)

theorem validateFlowStatsRequestOf_ok {type : StatsType} {mtch : OfpMatch}
    (hh : Headed m .statsRequest 56 56) (htype : be16 m 8 = type.code) (hflags : be16 m 10 = 0)
    (hm : Holds m 12 (netMatch mtch)) (hmatch : validateMatch mtch = .ok ())
    (hport : validatePhyPortNo (be16 m 54) = .ok ()) :
    validateFlowStatsRequestOf type m = .ok () := by
  have hmin := hh.lower
  obtain ⟨b,hconv,hof⟩ := ntohMatch_ok hm
  rw [validateFlowStatsRequestOf,validateStatsRequestOf_ok (by omega) hh htype hflags,ok_bind,hconv,
    ok_bind,hof]
  change (validateMatch mtch >>= fun _ => _) = _
  rw [hmatch,ok_bind,net16_inside (by omega),ok_bind,hport]

theorem validatePortStatsRequest_ok (hh : Headed m .statsRequest 20 20)
    (htype : be16 m 8 = StatsType.port.code) (hflags : be16 m 10 = 0)
    (hport : validatePhyPortNo (be16 m 12) = .ok ())
    (hphysical : be16 m 12 ≤ ofppMax ∨ be16 m 12 = ofppNone ∨ be16 m 12 = ofppLocal) :
    validatePortStatsRequest m = .ok () := by
  have hmin := hh.lower
  rw [validatePortStatsRequest,validateStatsRequestOf_ok (by omega) hh htype hflags,ok_bind,
    net16_inside (by omega),ok_bind,hport,ok_bind]
  refine rejectIf_eq_ok.mpr ?_
  rintro ⟨hlt,hnone,hlocal⟩
  rcases hphysical with h | h | h
  · exact UInt16.not_lt.mpr h hlt
  · exact hnone h
  · exact hlocal h

theorem validateQueueStatsRequest_ok (hh : Headed m .statsRequest 20 20)
    (htype : be16 m 8 = StatsType.queue.code) (hflags : be16 m 10 = 0)
    (hport : validatePhyPortNo (be16 m 12) = .ok ()) : validateQueueStatsRequest m = .ok () := by
  have hmin := hh.lower
  rw [validateQueueStatsRequest,validateStatsRequestOf_ok (by omega) hh htype hflags,ok_bind,
    net16_inside (by omega),ok_bind,hport]

theorem validateStatsRequest_ok {type : StatsType} (hmin : 10 ≤ m.length)
    (htype : be16 m 8 = type.code) (h : validateStatsRequestByType m type = .ok ()) :
    validateStatsRequest m = .ok () := by
  rw [validateStatsRequest,net16_inside (by omega),ok_bind,htype,StatsType.ofCode_code]
  exact h

theorem validateSingleStatsReply_ok {hi : Nat} (hh : Headed m .statsReply 12 hi)
    (hflags : be16 m 10 = 0) : validateSingleStatsReply hi m = .ok () := by
  have hmin := hh.lower
  rw [validateSingleStatsReply,hh.validated,ok_bind,net16_inside (by omega),ok_bind]
  exact rejectIf_eq_ok.mpr (not_not.mpr hflags)

theorem statsReplyBody_ok (hh : Headed m .statsReply 12 65535)
    (hflags : be16 m 10 &&& ~~~ofpsfReplyMore = 0) : statsReplyBody m = .ok (m.length - 12) := by
  have hmin := hh.lower
  have hmax := hh.upper
  rw [statsReplyBody,hh.validated,ok_bind,net16_inside (by omega),ok_bind,rejectIf,
    if_neg (not_not.mpr hflags),ok_bind,net16_inside (by omega),ok_bind,hh.length,
    sub16_of_le hmin (by omega)]
  rfl

theorem validateStatsEntries_ok {fs : List Field} {check : Bytes → Nat → Exec Unit}
    {structs : List (Struct fs)} (hpos : 0 < size fs) (hh : Headed m .statsReply 12 65535)
    (hflags : be16 m 10 &&& ~~~ofpsfReplyMore = 0) (hlen : m.length = 12 + size fs * structs.length)
    (hm : Holds m 12 (netStructs structs))
    (hall : ∀ s ∈ structs, ∀ q, Holds m q (cells fs s.bytes) → check m q = .ok ()) :
    validateStatsEntries (size fs) check m = .ok () := by
  have hbody := statsReplyBody_ok hh hflags
  rw [hlen,Nat.add_sub_cancel_left] at hbody
  rw [validateStatsEntries,hbody,ok_bind,Nat.mul_mod_right,Nat.mul_div_cancel_left _ hpos,rejectIf,
    if_neg (by simp),ok_bind]
  exact validateEach_ok hm hall

theorem validateFlowStatsReply_ok {flows : List FlowStats} (hh : Headed m .statsReply 12 65535)
    (hflags : be16 m 10 &&& ~~~ofpsfReplyMore = 0)
    (hlen : m.length = 12 + (concat netFlow flows).length) (hm : Holds m 12 (concat netFlow flows))
    (hall : ∀ flow ∈ flows, FlowStats.Allowed flow) :
    Yields (fun n => validateFlowStatsReply n m) (.ok ()) := by
  have hmax := hh.upper
  have hbody := statsReplyBody_ok hh hflags
  rw [hlen,Nat.add_sub_cancel_left] at hbody
  have hreach := validateFlows_reach hall hm (by omega)
  obtain ⟨_,n,hn⟩ := (whileLoop_yields_ok (settled_flowStatsStep m) _ _).mpr ⟨hreach,by simp⟩
  refine ⟨by simp,n,?_⟩
  simp only [validateFlowStatsReply,hbody,ok_bind,hn]
  rfl

theorem validateStatsReply_ok {type : StatsType} (hmin : 10 ≤ m.length)
    (htype : be16 m 8 = type.code)
    (h : Yields (fun n => validateStatsReplyByType n m type) (.ok ())) :
    Yields (fun n => validateStatsReply n m) (.ok ()) := by
  obtain ⟨_,n,hn⟩ := h
  refine ⟨by simp,n,?_⟩
  show validateStatsReply n m = .ok ()
  rw [validateStatsReply,net16_inside (by omega),ok_bind,htype,StatsType.ofCode_code]
  exact hn

theorem validateQueueGetConfigReply_ok {queues : List PacketQueue}
    (hh : Headed m .queueGetConfigReply 24 65535) (hport : validatePhyPortNo (be16 m 8) = .ok ())
    (hlen : m.length = 16 + (concat netQueue queues).length)
    (hm : Holds m 16 (concat netQueue queues))
    (hall : ∀ queue ∈ queues, queue.properties ≠ []) :
    Yields (fun n => validateQueueGetConfigReply n m) (.ok ()) := by
  have hmin := hh.lower
  have hmax := hh.upper
  have hfields : queueConfigFields m = .ok (concat netQueue queues).length := by
    rw [queueConfigFields,hh.validated,ok_bind,net16_inside (by omega),ok_bind,hport,ok_bind,
      net16_inside (by omega),ok_bind,hh.length,sub16_of_le (by omega) (by omega),hlen,
      Nat.add_sub_cancel_left]
    rfl
  refine (yields_after (settled_queues m) _).mpr (.inl ⟨_,hfields,?_⟩)
  refine (yields_bind (settled_queuesLoop m _) (settled_queuesAfter m) _).mpr (.inl ⟨_,
    (whileLoop_yields_ok (fun s => settled_const (countQueue m s)) _ _).mpr
      ⟨countQueues_reach hall hm (by omega),by simp⟩,?_⟩)
  refine (yields_after (fun _ => settled_onlyIf (settled_validatePacketQueues _ _ _)) _).mpr
    (.inl ⟨(),rejectIf_eq_ok.mpr (by simp),?_⟩)
  rw [Nat.zero_add]
  by_cases hpos : 0 < queues.length
  · simp only [onlyIf,hpos,if_true]
    exact validatePacketQueues_yields hall hm (by omega)
  · simp only [onlyIf,hpos,if_false]
    exact ⟨by simp,0,rfl⟩

theorem validateOpenflowMessage_ok {type : OfpType} {lo hi : Nat} (hh : Headed m type lo hi)
    (h : Yields (fun n => validateByType n m type) (.ok ())) :
    Yields (fun n => validateOpenflowMessage n m) (.ok ()) := by
  have hfits := hh.fits
  obtain ⟨_,n,hn⟩ := h
  refine ⟨by simp,n,?_⟩
  show validateOpenflowMessage n m = .ok ()
  rw [validateOpenflowMessage,load_ok (by omega),ok_bind,byteAt_inside (by omega),ok_bind,hh.type,
    OfpType.ofCode_code]
  exact hn

end Validators

section Messages

attribute [local simp] slice_append_right slice_append_left slice_whole slice_cons slice_head

variable {xid : UInt32}

theorem holds_framed_tail {type : OfpType} {pre post : Bytes} {p : Nat} (hp : p = 8 + pre.length) :
    Holds (framed xid type (pre ++ post)) p post := by
  rw [hp]
  exact (Holds.append.mp holds_framed).2

theorem holds_framed_head {type : OfpType} {pre post : Bytes} :
    Holds (framed xid type (pre ++ post)) 8 pre := (Holds.append.mp holds_framed).1

theorem statsHead_read {m : Bytes} {type : StatsType} {flags : UInt16}
    (h : Holds m 8 (statsHead type flags)) : be16 m 8 = type.code ∧ be16 m 10 = flags := by
  have htype := h.be16 (i := 0) (by simp)
  have hflags := h.be16 (i := 2) (by simp)
  exact ⟨htype.trans (by simp [be16,statsHead]),hflags.trans (by simp [be16,statsHead])⟩

theorem encode_featuresReply {datapathId : UInt64} {nBuffers : UInt32} {nTables : UInt8}
    {capabilities actions : UInt32} {ports : List PhyPort}
    (ha : (Construction.featuresReply datapathId nBuffers nTables capabilities actions ports).Allowed)
    (hs : (Construction.featuresReply datapathId nBuffers nTables capabilities actions ports).size ≤
      65535) :
    validateFeaturesReply (encode xid
      (.featuresReply datapathId nBuffers nTables capabilities actions ports)) = .ok () := by
  have hsize : size phyPortFields = 48 := by decide
  have hnet := length_netStructs ports
  rw [hsize] at hnet
  simp only [Construction.size] at hs
  rw [encode]
  refine validateFeaturesReply_ok (headed_framed hs ?_ hs) ?_ ?_ (holds_framed_tail ?_) ha.2
  · simp [Construction.body]
    omega
  · have : hostByte (framed xid .featuresReply
        (Construction.featuresReply datapathId nBuffers nTables capabilities actions ports).body) 20 =
          nTables := by simp [hostByte,framed,Construction.body]
    rw [Construction.type,this]
    exact ha.1
  · rw [length_framed]
    simp [Construction.body,hnet]
    omega
  · simp

theorem encode_packetOut {bufferId : UInt32} {inPort : UInt16} {actions : Option OpenflowActions}
    {data : Option Bytes} (ha : (Construction.packetOut bufferId inPort actions data).Allowed)
    (hs : (Construction.packetOut bufferId inPort actions data).size ≤ 65535) :
    Yields (fun n => validatePacketOut n (encode xid (.packetOut bufferId inPort actions data)))
      (.ok ()) := by
  simp only [Construction.size] at hs
  have hparts := hs
  simp only [Construction.body,List.length_append] at hparts
  have hall := built_allowed ha.2 (by omega)
  have hnet := length_netActions fun b hb => (hall b hb).isAction
  have hport : be16 (encode xid (.packetOut bufferId inPort actions data)) 12 = inPort := by
    simp [be16,encode,framed,Construction.body]
  have hlen : be16 (encode xid (.packetOut bufferId inPort actions data)) 14 =
      UInt16.ofNat (actionList actions).flatten.length := by
    simp [be16,encode,framed,Construction.body]
  refine validatePacketOut_ok (headed_framed hs ?_ hs) ?_ ?_ hall ?_
  · simp [Construction.body]
    omega
  · rw [hport]
    exact ha.1
  · rw [hlen,UInt16.toNat_ofNat_of_lt' (show _ < 65536 by omega)]
  · rw [encode,Construction.body,List.append_assoc _ (netActions actions)]
    exact (Holds.append.mp (holds_framed_tail (by simp))).1

theorem encode_flowMod {mtch : OfpMatch} {cookie : UInt64}
    {command idleTimeout hardTimeout priority : UInt16} {bufferId : UInt32}
    {outPort flags : UInt16} {actions : Option OpenflowActions}
    (ha : (Construction.flowMod mtch cookie command idleTimeout hardTimeout priority bufferId outPort
      flags actions).Allowed)
    (hs : (Construction.flowMod mtch cookie command idleTimeout hardTimeout priority bufferId outPort
      flags actions).size ≤ 65535) :
    Yields (fun n => validateFlowMod n (encode xid (.flowMod mtch cookie command idleTimeout
      hardTimeout priority bufferId outPort flags actions))) (.ok ()) := by
  obtain ⟨hmatch,hcommand,hprio,hport,hflags,hbuilt⟩ := ha
  simp only [Construction.size] at hs
  have hparts := hs
  simp only [Construction.body,List.length_append] at hparts
  have hall := built_allowed hbuilt (by omega)
  have hnet := length_netActions fun b hb => (hall b hb).isAction
  rw [encode,Construction.type]
  have h56 : be16 (framed xid .flowMod (Construction.flowMod mtch cookie command idleTimeout
      hardTimeout priority bufferId outPort flags actions).body) 56 = command := by
    simp [be16,framed,Construction.body]
  have h62 : be16 (framed xid .flowMod (Construction.flowMod mtch cookie command idleTimeout
      hardTimeout priority bufferId outPort flags actions).body) 62 = priority := by
    simp [be16,framed,Construction.body]
  have h68 : be16 (framed xid .flowMod (Construction.flowMod mtch cookie command idleTimeout
      hardTimeout priority bufferId outPort flags actions).body) 68 = outPort := by
    simp [be16,framed,Construction.body]
  have h70 : be16 (framed xid .flowMod (Construction.flowMod mtch cookie command idleTimeout
      hardTimeout priority bufferId outPort flags actions).body) 70 = flags := by
    simp [be16,framed,Construction.body]
  refine validateFlowMod_ok (headed_framed hs ?_ hs) ?_ hmatch (by rw [h56]; exact hcommand)
    (by rw [h62]; exact hprio) (by rw [h56,h68]; exact hport) (by rw [h70]; exact hflags) ?_ hall
    (holds_framed_tail (by simp))
  · simp [Construction.body]
    omega
  · simp only [Construction.body,List.append_assoc]
    exact holds_framed_head
  · rw [length_framed]
    simp [Construction.body,hnet]
    omega

theorem flowStatsRequest_accepted {type : StatsType} {flags : UInt16} {mtch : OfpMatch}
    {tableId : UInt8} {outPort : UInt16} (hzero : flags = 0) (hmatch : validateMatch mtch = .ok ())
    (hport : validatePhyPortNo outPort = .ok ()) :
    validateFlowStatsRequestOf type (framed xid .statsRequest
      (statsHead type flags ++ (netMatch mtch ++ [tableId,0] ++ toNet16 outPort))) = .ok () := by
  obtain ⟨htype,hflags⟩ := statsHead_read holds_framed_head
  refine validateFlowStatsRequestOf_ok (headed_framed (by simp) (by simp) (by simp)) htype
    (hflags.trans hzero) ?_ hmatch ?_
  · rw [List.append_assoc (netMatch mtch)]
    exact (Holds.append.mp (holds_framed_tail (by simp))).1
  · rw [show be16 (framed xid .statsRequest (statsHead type flags ++ (netMatch mtch ++ [tableId,0] ++
      toNet16 outPort))) 54 = outPort by simp [be16,framed]]
    exact hport

theorem encode_statsRequest {c : Construction} (hc : c.type = .statsRequest) (ha : c.Allowed)
    (hs : c.size ≤ 65535) : validateStatsRequest (encode xid c) = .ok () := by
  simp only [Construction.size] at hs
  have hmin : ∀ {body : Bytes}, 4 ≤ body.length →
      10 ≤ (framed xid .statsRequest body).length := by
    intro body hbody
    rw [length_framed]
    omega
  rw [encode,hc]
  cases c with
  | descStatsRequest flags =>
    simp only [Construction.body] at hs ⊢
    obtain ⟨htype,hflags⟩ := statsHead_read holds_framed
    exact validateStatsRequest_ok (hmin (by simp)) htype (validateStatsRequestOf_ok le_rfl
      (headed_framed hs (by simp) (by simp)) htype (hflags.trans ha))
  | tableStatsRequest flags =>
    simp only [Construction.body] at hs ⊢
    obtain ⟨htype,hflags⟩ := statsHead_read holds_framed
    exact validateStatsRequest_ok (hmin (by simp)) htype (validateStatsRequestOf_ok le_rfl
      (headed_framed hs (by simp) (by simp)) htype (hflags.trans ha))
  | flowStatsRequest flags mtch tableId outPort =>
    obtain ⟨hzero,hmatch,hport⟩ := ha
    exact validateStatsRequest_ok (hmin (by simp [Construction.body]))
      (statsHead_read holds_framed_head).1 (flowStatsRequest_accepted hzero hmatch hport)
  | aggregateStatsRequest flags mtch tableId outPort =>
    obtain ⟨hzero,hmatch,hport⟩ := ha
    exact validateStatsRequest_ok (hmin (by simp [Construction.body]))
      (statsHead_read holds_framed_head).1 (flowStatsRequest_accepted hzero hmatch hport)
  | portStatsRequest flags portNo =>
    obtain ⟨hzero,hport,hphysical⟩ := ha
    simp only [Construction.body] at hs ⊢
    obtain ⟨htype,hflags⟩ := statsHead_read holds_framed_head
    have h12 : be16 (framed xid .statsRequest (statsHead .port flags ++ (toNet16 portNo ++
        [0,0,0,0,0,0]))) 12 = portNo := by simp [be16,framed]
    exact validateStatsRequest_ok (hmin (by simp)) htype (validatePortStatsRequest_ok
      (headed_framed hs (by simp) (by simp)) htype (hflags.trans hzero) (by rw [h12]; exact hport)
      (by rw [h12]; exact hphysical))
  | queueStatsRequest flags portNo queueId =>
    obtain ⟨hzero,hport⟩ := ha
    simp only [Construction.body] at hs ⊢
    obtain ⟨htype,hflags⟩ := statsHead_read holds_framed_head
    have h12 : be16 (framed xid .statsRequest (statsHead .queue flags ++ (toNet16 portNo ++
        [0,0] ++ toNet32 queueId))) 12 = portNo := by simp [be16,framed]
    exact validateStatsRequest_ok (hmin (by simp)) htype (validateQueueStatsRequest_ok
      (headed_framed hs (by simp) (by simp)) htype (hflags.trans hzero) (by rw [h12]; exact hport))
  | vendorStatsRequest flags vendorId body =>
    simp only [Construction.body,List.append_assoc] at hs ⊢
    obtain ⟨htype,hflags⟩ := statsHead_read holds_framed_head
    exact validateStatsRequest_ok (hmin (by simp)) htype (validateStatsRequestOf_ok (by omega)
      (headed_framed hs (by simp; omega) hs) htype (hflags.trans ha))
  | _ => exact absurd hc (by simp [Construction.type])

theorem entries_accepted {type : StatsType} {fs : List Field} {check : Bytes → Nat → Exec Unit}
    {flags : UInt16} {structs : List (Struct fs)} (hpos : 0 < size fs)
    (hs : 8 + (statsHead type flags ++ netStructs structs).length ≤ 65535)
    (hflags : flags &&& ~~~ofpsfReplyMore = 0)
    (hall : ∀ s ∈ structs, ∀ q, Holds (framed xid .statsReply (statsHead type flags ++
      netStructs structs)) q (cells fs s.bytes) → check (framed xid .statsReply
        (statsHead type flags ++ netStructs structs)) q = .ok ()) :
    validateStatsEntries (size fs) check (framed xid .statsReply
      (statsHead type flags ++ netStructs structs)) = .ok () := by
  refine validateStatsEntries_ok hpos (headed_framed hs (by simp; omega) hs) ?_ ?_
    (holds_framed_tail (by simp)) hall
  · rw [(statsHead_read holds_framed_head).2]
    exact hflags
  · rw [length_framed,List.length_append,length_statsHead,length_netStructs]
    omega

theorem tables_accepted {flags : UInt16} {tables : List TableStats}
    (hs : 8 + (statsHead .table flags ++ netStructs tables).length ≤ 65535)
    (hflags : flags &&& ~~~ofpsfReplyMore = 0)
    (hall : ∀ table ∈ tables, validateWildcards (host32 table.bytes 36) = .ok ()) :
    validateTableStatsReply (framed xid .statsReply (statsHead .table flags ++ netStructs tables)) =
      .ok () := by
  refine entries_accepted (by decide) hs hflags fun table htable q hq => ?_
  have hread : readEnd tableStatsFields ≤ table.bytes.length := by
    rw [table.sized]
    decide
  have hlen : (cells tableStatsFields table.bytes).length = 64 := length_struct table
  have hbound := hq.bound (by omega)
  rw [net32_inside (by omega),ok_bind,hq.be32 (by omega),be32_cells (by decide) hread]
  exact hall table htable

theorem validatePortNo_ok {fs : List Field} (hf : fieldAt fs 0 = some (.swap 2)) (hsize : 2 ≤ size fs)
    {s : Struct fs} (hs : validatePhyPortNo (host16 s.bytes 0) = .ok ()) {m : Bytes} {q : Nat}
    (hq : Holds m q (cells fs s.bytes)) :
    (net16 m q >>= fun portNo => validatePhyPortNo portNo) = .ok () := by
  have hread : readEnd fs ≤ s.bytes.length := by
    rw [s.sized]
    exact readEnd_le_size fs
  have hlen := length_struct s
  have hbound := hq.bound (by omega)
  have hfield : be16 (cells fs s.bytes) 0 = host16 s.bytes 0 := Order.u16_cells .host hf hread
  have hread : be16 m (q + 0) = be16 (cells fs s.bytes) 0 := hq.be16 (by omega)
  rw [Nat.add_zero,hfield] at hread
  rw [net16_inside (by omega),ok_bind,hread]
  exact hs

theorem encode_statsReply {c : Construction} (hc : c.type = .statsReply) (ha : c.Allowed)
    (hg : c.Guarded) (hs : c.size ≤ 65535) :
    Yields (fun n => validateStatsReply n (encode xid c)) (.ok ()) := by
  simp only [Construction.size] at hs
  have hmin : ∀ {body : Bytes}, 4 ≤ body.length →
      10 ≤ (framed xid .statsReply body).length := by
    intro body hbody
    rw [length_framed]
    omega
  rw [encode,hc]
  cases c with
  | descStatsReply flags mfrDesc hwDesc swDesc serialNum dpDesc =>
    obtain ⟨hzero,hmfr,hhw,hsw,hserial,hdp⟩ := ha
    simp only [Construction.body,List.append_assoc] at hs ⊢
    obtain ⟨htype,hflags⟩ := statsHead_read holds_framed_head
    refine validateStatsReply_ok (hmin (by simp)) htype (yields_ok (validateSingleStatsReply_ok
      (headed_framed hs (by simp; omega) ?_) (hflags.trans hzero)))
    simp [hmfr,hhw,hsw,hdp]
    omega
  | aggregateStatsReply flags packetCount byteCount flowCount =>
    simp only [Construction.body] at hs ⊢
    obtain ⟨htype,hflags⟩ := statsHead_read holds_framed_head
    exact validateStatsReply_ok (hmin (by simp)) htype (yields_ok (validateSingleStatsReply_ok
      (headed_framed hs (by simp) (by simp)) (hflags.trans ha)))
  | flowStatsReply flags flows =>
    simp only [Construction.body] at hs ⊢
    obtain ⟨htype,hflags⟩ := statsHead_read holds_framed_head
    refine validateStatsReply_ok (hmin (by simp)) htype (validateFlowStatsReply_ok
      (headed_framed hs (by simp; omega) hs) (by rw [hflags]; exact ha.1) ?_
      (holds_framed_tail (by simp)) ha.2)
    rw [length_framed,List.length_append,length_statsHead]
    omega
  | tableStatsReply flags tables =>
    have hok : validateTableStatsReply (framed xid .statsReply (statsHead .table flags ++
        netStructs tables)) = .ok () := tables_accepted hs ha.1 ha.2
    exact validateStatsReply_ok (hmin (by simp [Construction.body]))
      (statsHead_read holds_framed_head).1 ⟨by simp,0,hok⟩
  | portStatsReply flags ports =>
    have hok : validatePortStatsReply (framed xid .statsReply (statsHead .port flags ++
        netStructs ports)) = .ok () := entries_accepted (by decide) hs ha.1 fun port hport _ hq =>
      validatePortNo_ok (by decide) (by decide) (ha.2 port hport) hq
    exact validateStatsReply_ok (hmin (by simp [Construction.body]))
      (statsHead_read holds_framed_head).1 ⟨by simp,0,hok⟩
  | queueStatsReply flags queues =>
    have hok : validateQueueStatsReply (framed xid .statsReply (statsHead .queue flags ++
        netStructs queues)) = .ok () := entries_accepted (by decide) hs ha.1 fun queue hqueue _ hq =>
      validatePortNo_ok (by decide) (by decide) (ha.2 queue hqueue) hq
    exact validateStatsReply_ok (hmin (by simp [Construction.body]))
      (statsHead_read holds_framed_head).1 ⟨by simp,0,hok⟩
  | vendorStatsReply flags vendorId body =>
    simp only [Construction.body,List.append_assoc] at hs ⊢
    obtain ⟨htype,hflags⟩ := statsHead_read holds_framed_head
    have hbody := statsReplyBody_ok (headed_framed hs (by simp; omega) hs) (by rw [hflags]; exact ha)
    have hok : validateVendorStatsReply (framed xid .statsReply (statsHead .vendor flags ++
        (toNet32 vendorId ++ body.getD []))) = .ok () := by
      rw [validateVendorStatsReply,hbody]
      rfl
    exact validateStatsReply_ok (hmin (by simp)) htype ⟨by simp,0,hok⟩
  | _ => exact absurd hc (by simp [Construction.type])

theorem encode_accepted {c : Construction} (ha : c.Allowed) (hg : c.Guarded)
    (hs : c.size ≤ 65535) :
    Yields (fun n => validateOpenflowMessage n (encode xid c)) (.ok ()) := by
  have hs' : 8 + c.body.length ≤ 65535 := hs
  refine validateOpenflowMessage_ok (headed_framed hs' (Nat.zero_le _) hs') ?_
  rw [encode]
  cases c with
  | error type code data =>
    have hh : Headed (framed xid .error (Construction.error type code data).body) .error 12 65535 :=
      headed_framed hs' (by simp [Construction.body]; omega) hs'
    exact yields_ok (r := validateError _) hh.validated
  | echoRequest body =>
    exact yields_ok (r := validateEchoRequest _) (validateSized_ok (headed_framed hs' (by omega) hs'))
  | echoReply body =>
    exact yields_ok (r := validateEchoReply _) (validateSized_ok (headed_framed hs' (by omega) hs'))
  | vendor vendorId data =>
    exact yields_ok (r := validateVendor _) (validateSized_ok (headed_framed hs' (by simp [Construction.body]; omega) hs'))
  | featuresReply => exact yields_ok (r := validateFeaturesReply _) (encode_featuresReply ha hs)
  | getConfigReply flags missSendLen =>
    refine yields_ok (r := validateGetConfigReply _) (validateSwitchConfig_ok (headed_framed hs'
      (by simp [Construction.body]) (by simp [Construction.body])) ?_)
    simpa [be16,framed,Construction.body,Construction.Allowed] using ha
  | setConfig flags missSendLen =>
    refine yields_ok (r := validateSetConfig _) (validateSwitchConfig_ok (headed_framed hs'
      (by simp [Construction.body]) (by simp [Construction.body])) ?_)
    simpa [be16,framed,Construction.body,Construction.Allowed] using ha
  | packetIn bufferId totalLen inPort reason data =>
    refine yields_ok (r := validatePacketIn _) (validatePacketIn_ok (headed_framed hs' (by simp [Construction.body]; omega) hs')
      ?_ ?_)
    · simpa [be16,framed,Construction.body] using ha.1
    · simpa [hostByte,framed,Construction.body] using ha.2
  | flowRemoved mtch cookie priority reason durationSec durationNsec idleTimeout packetCount
      byteCount =>
    obtain ⟨hmatch,hprio,hreason⟩ := ha
    refine yields_ok (r := validateFlowRemoved _) (validateFlowRemoved_ok (headed_framed hs' (by simp [Construction.body])
      (by simp [Construction.body])) ?_ hmatch ?_ ?_)
    · simp only [Construction.body,List.append_assoc]
      exact holds_framed_head
    · simpa [be16,framed,Construction.body] using hprio
    · simpa [hostByte,framed,Construction.body] using hreason
  | portStatus reason desc =>
    have hlen : (cells phyPortFields desc.bytes).length = 48 := length_struct desc
    refine yields_ok (r := validatePortStatus _) (validatePortStatus_ok (headed_framed hs' (by simp [Construction.body,hlen])
      (by simp [Construction.body,hlen])) ?_ (holds_framed_tail (by simp)) ha.2)
    simpa [hostByte,framed,Construction.body] using ha.1
  | packetOut => exact encode_packetOut ha hs
  | flowMod => exact encode_flowMod ha hs
  | portMod portNo hwAddr config mask advertise =>
    obtain ⟨hport,hphysical,hconfig,hmask,hadvertise⟩ := ha
    have hmac : hwAddr.toBytes.length = 6 := rfl
    refine yields_ok (r := validatePortMod _) (validatePortMod_ok (headed_framed hs' (by simp [Construction.body,hmac])
      (by simp [Construction.body,hmac])) ?_ ?_ ?_ ?_ ?_)
    · simpa [be16,framed,Construction.body] using hport
    · simpa [be16,framed,Construction.body] using hphysical
    · simpa [be32,framed,Construction.body,hmac] using hconfig
    · simpa [be32,framed,Construction.body,hmac] using hmask
    · simpa [be32,framed,Construction.body,hmac] using hadvertise
  | queueGetConfigRequest port =>
    have hh : Headed (framed xid .queueGetConfigRequest (toNet16 port ++ [0,0]))
      .queueGetConfigRequest 12 12 := headed_framed hs' (by simp) (by simp)
    have h8 : be16 (framed xid .queueGetConfigRequest (toNet16 port ++ [0,0])) 8 = port := by
      simp [be16,framed]
    have hmin := hh.lower
    refine yields_ok (r := validateQueueGetConfigRequest (framed xid .queueGetConfigRequest
      (toNet16 port ++ [0,0]))) ?_
    rw [validateQueueGetConfigRequest,hh.validated,ok_bind,net16_inside (by omega),ok_bind,h8]
    exact ha
  | queueGetConfigReply port queues =>
    have hlarge : 8 ≤ (concat netQueue queues).length := by
      obtain ⟨queue,hqueue⟩ := List.exists_mem_of_ne_nil _ hg
      have h8 := length_netQueue_ge (ha.2 queue hqueue)
      have hmem : netQueue queue ∈ queues.map netQueue := List.mem_map_of_mem hqueue
      have hle := List.Sublist.length_le (List.sublist_flatten_of_mem hmem)
      exact le_trans (by omega) hle
    refine validateQueueGetConfigReply_ok (headed_framed hs' (by simp [Construction.body]; omega) hs')
      ?_ ?_ (holds_framed_tail (by simp)) ha.2
    · simpa [be16,framed,Construction.body] using ha.1
    · rw [length_framed]
      simp [Construction.body]
      omega
  | descStatsRequest flags => exact yields_ok (r := validateStatsRequest _) (encode_statsRequest rfl ha hs)
  | flowStatsRequest => exact yields_ok (r := validateStatsRequest _) (encode_statsRequest rfl ha hs)
  | aggregateStatsRequest => exact yields_ok (r := validateStatsRequest _) (encode_statsRequest rfl ha hs)
  | tableStatsRequest => exact yields_ok (r := validateStatsRequest _) (encode_statsRequest rfl ha hs)
  | portStatsRequest => exact yields_ok (r := validateStatsRequest _) (encode_statsRequest rfl ha hs)
  | queueStatsRequest => exact yields_ok (r := validateStatsRequest _) (encode_statsRequest rfl ha hs)
  | vendorStatsRequest => exact yields_ok (r := validateStatsRequest _) (encode_statsRequest rfl ha hs)
  | descStatsReply => exact encode_statsReply rfl ha hg hs
  | flowStatsReply => exact encode_statsReply rfl ha hg hs
  | aggregateStatsReply => exact encode_statsReply rfl ha hg hs
  | tableStatsReply => exact encode_statsReply rfl ha hg hs
  | portStatsReply => exact encode_statsReply rfl ha hg hs
  | queueStatsReply => exact encode_statsReply rfl ha hg hs
  | vendorStatsReply => exact encode_statsReply rfl ha hg hs
  | hello => exact yields_ok (r := validateHello _) (headed_framed hs' le_rfl le_rfl).validated
  | featuresRequest =>
    exact yields_ok (r := validateFeaturesRequest _) (headed_framed hs' le_rfl le_rfl).validated
  | getConfigRequest =>
    exact yields_ok (r := validateGetConfigRequest _) (headed_framed hs' le_rfl le_rfl).validated
  | barrierRequest =>
    exact yields_ok (r := validateBarrierRequest _) (headed_framed hs' le_rfl le_rfl).validated
  | barrierReply =>
    exact yields_ok (r := validateBarrierReply _) (headed_framed hs' le_rfl le_rfl).validated

end Messages

def Conforms (xid : UInt32) (c : Construction) : Prop :=
  ∃ buffer, Yields (fun n => create n xid c) (.ok buffer) ∧
    Yields (fun n => validateOpenflowMessage n buffer) (.ok ()) ∧
    (be16 buffer 2).toNat = buffer.length

theorem constructed_messages_accepted (xid : UInt32) (c : Construction) (ha : c.Allowed)
    (hg : c.Guarded) (hs : c.size ≤ 65535) : Conforms xid c := by
  refine ⟨encode xid c,create_yields hg (encodable_of_allowed ha hs) hs,encode_accepted ha hg hs,?_⟩
  exact (headed_framed hs (Nat.zero_le _) hs).length

def vlanCalls : List ActionCall := [.setVlanVid 5,.vendor 7 (some [1,2,3,4,5,6,7,8]),.output 1 0]

def vlanFlowMod : Construction :=
  .flowMod anyMatch 0 0 0 0 0 uint32Max ofppNone 0 (some ⟨3,vlanCalls.map ActionCall.block⟩)

theorem vlanFlowMod_allowed : vlanFlowMod.Allowed := by
  refine ⟨by decide,by decide,by decide,by decide,by decide,?_⟩
  rintro a ⟨⟩
  refine ⟨vlanCalls,by decide,?_⟩
  simp only [vlanCalls,List.forall_mem_cons]
  exact ⟨show validateVlanVid 5 = .ok () by decide,show 8 % 8 = 0 by decide,
    show validatePhyPortNo 1 = .ok () by decide,by simp⟩

theorem constructed_flow_mod_accepted :
    vlanFlowMod.Allowed ∧ vlanFlowMod.Guarded ∧ vlanFlowMod.size ≤ 65535 ∧
      Conforms 1 vlanFlowMod :=
  have hs : vlanFlowMod.size ≤ 65535 := by decide
  ⟨vlanFlowMod_allowed,trivial,hs,
    constructed_messages_accepted 1 vlanFlowMod vlanFlowMod_allowed trivial hs⟩

def emptyQueueConfig : Construction := .queueGetConfigReply 1 []

def frameless : Construction := .packetOut uint32Max 1 none none

theorem construction_aborted :
    (emptyQueueConfig.Allowed ∧ emptyQueueConfig.size ≤ 65535 ∧ ¬ Conforms 0 emptyQueueConfig) ∧
    (frameless.Allowed ∧ frameless.size ≤ 65535 ∧ ¬ Conforms 0 frameless) := by
  refine ⟨⟨⟨by decide,by simp⟩,by decide,?_⟩,⟨by decide,by simp [Built]⟩,by decide,?_⟩
  · rintro ⟨buffer,⟨_,n,hn⟩,_⟩
    have habort : create n 0 emptyQueueConfig = .error .aborted := rfl
    simp only [habort] at hn
    simp at hn
  · rintro ⟨buffer,⟨_,n,hn⟩,_⟩
    have habort : create n 0 frameless = .error .aborted := rfl
    simp only [habort] at hn
    simp at hn

end Trema.OpenFlow
