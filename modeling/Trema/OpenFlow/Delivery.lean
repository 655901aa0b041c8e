import Trema.OpenFlow.Conformance
import Trema.OpenFlow.DecodeSafety

namespace Trema.OpenFlow

open Library Layout

section RoundTrip

theorem convert_twice {t : ActionType} {b : Bytes} (h : ActionBlock .host t b) :
    convertBlock .net (convertBlock .host b) =
      blank (actionFields t) b ++ b.drop (size (actionFields t)) := by
  have hcells := length_cells h.readEnd_le
  have himage : ActionBlock .net t (actionImage t b) := h.image
  rw [convertBlock_eq h,convertBlock_eq himage]
  rw [actionImage,actionImage,cells_append _ (by rw [hcells]; exact readEnd_le_size _),
    cells_cells h.fits,List.drop_left' hcells]

theorem convert_twice_block {call : ActionCall} (h : call.block.length < 65536) :
    convertBlock .net (convertBlock .host call.block) = call.block := by
  rw [convert_twice (actionBlock_block h),blank_block,List.take_append_drop]

end RoundTrip

def handedActions (actions : Option OpenflowActions) : Option OpenflowActions :=
  if actionList actions = [] then none else actions

def Assembled (actions : Option OpenflowActions) : Prop :=
  ∀ a, actions = some a → ∃ calls, buildActions calls = .ok a

-- What the switch interface lets through: a flow_mod with a command that OpenFlow does not define
-- is checked up to its match only.
def Deliverable : Construction → Prop
  | .flowMod mtch cookie command idleTimeout hardTimeout priority bufferId outPort flags actions =>
    validateMatch mtch = .ok () ∧ Assembled actions ∧ (command ≤ ofpfcDeleteStrict →
      (Construction.flowMod mtch cookie command idleTimeout hardTimeout priority bufferId outPort
        flags actions).Allowed)
  | c => c.Allowed

def handedData (data : Option Bytes) : Option Bytes := if data.getD [] = [] then none else data

def delivered (xid : UInt32) : Construction → Option SwitchEvent
  | .packetOut bufferId inPort actions data =>
    some (.packetOut xid bufferId inPort (handedActions actions) (handedData data))
  | .flowMod mtch cookie command idleTimeout hardTimeout priority bufferId outPort flags actions =>
    some (.flowMod xid mtch.unpadded cookie command idleTimeout hardTimeout priority bufferId outPort
      flags (handedActions actions))
  | _ => none

section Handling

variable {xid : UInt32}

theorem Built.assembled {actions : Option OpenflowActions} (h : Built actions) :
    Assembled actions := by
  intro a ha
  obtain ⟨calls,hcalls,_⟩ := h a ha
  exact ⟨calls,hcalls⟩

theorem Assembled.calls {actions : Option OpenflowActions} (h : Assembled actions)
    (hs : (netActions actions).length ≤ 65535) :
    ∃ calls : List ActionCall, actionList actions = calls.map ActionCall.block ∧
      (∀ a, actions = some a → a = ⟨calls.length,calls.map ActionCall.block⟩) ∧
      ∀ call ∈ calls, True ∧ call.block.length < 65536 := by
  refine built_calls (fun a ha => ?_) hs
  obtain ⟨calls,hcalls⟩ := h a ha
  exact ⟨calls,hcalls,fun _ _ => trivial⟩

theorem Assembled.isAction {actions : Option OpenflowActions} (h : Assembled actions)
    (hs : (netActions actions).length ≤ 65535) : ∀ b ∈ actionList actions, IsAction .host b := by
  obtain ⟨calls,hlist,_,hall⟩ := h.calls hs
  intro b hb
  rw [hlist] at hb
  obtain ⟨call,hcall,rfl⟩ := List.mem_map.mp hb
  exact ⟨call.type,actionBlock_block (hall call hcall).2⟩

theorem hostActions_built {actions : Option OpenflowActions} (h : Assembled actions)
    (hs : (netActions actions).length ≤ 65535) :
    hostActions ((actionList actions).map (convertBlock .host)) = handedActions actions := by
  obtain ⟨calls,hlist,hsome,hall⟩ := h.calls hs
  have hback : ((actionList actions).map (convertBlock .host)).map (convertBlock .net) =
      actionList actions := by
    rw [hlist,List.map_map,List.map_map]
    refine List.map_congr_left fun call hcall => ?_
    exact convert_twice_block (hall call hcall).2
  rw [hostActions,handedActions,hback,List.length_map]
  cases actions with
  | none => simp [actionList]
  | some a =>
    have ha := hsome a rfl
    subst ha
    cases calls with
    | nil => simp [actionList]
    | cons call calls =>
      have hlarge : 0 < (convertBlock .host call.block).length := by
        rw [length_convertBlock_block,length_block]
        omega
      have hpos : 0 < ((actionList (some ⟨(call :: calls).length,
          (call :: calls).map ActionCall.block⟩)).map (convertBlock .host)).flatten.length := by
        simp only [actionList,Option.map_some,Option.getD_some,List.map_cons,List.flatten_cons,
          List.length_append]
        omega
      rw [if_pos hpos,if_neg (by simp [actionList])]
      simp [actionList]

theorem handleOpenflowMessage_yields {handlers : Handlers} {m : Bytes} {type : OfpType} {lo hi : Nat}
    (hh : Headed m type lo hi) (hv : Yields (fun n => validateOpenflowMessage n m) (.ok ()))
    {handle : Nat → Exec (List SwitchEvent)} (hset : Settled handle)
    (hby : ∀ n, handleByType n handlers m type = some (handle n)) {events : List SwitchEvent}
    (hy : Yields handle (.ok events)) :
    Yields (fun n => handleOpenflowMessage n handlers m) (.ok ⟨true,events⟩) := by
  have hfits := hh.fits
  obtain ⟨j,hj⟩ := (settled_validateOpenflowMessage m).eventually hv
  obtain ⟨k,hk⟩ := hset.eventually hy
  have hvalid := hj (max j k) (Nat.le_max_left j k)
  have hevents := hk (max j k) (Nat.le_max_right j k)
  refine ⟨by simp,max j k,?_⟩
  simp only [handleOpenflowMessage,hvalid]
  rw [abortIf,if_neg (by omega),ok_bind,byteAt_inside (by omega),ok_bind,hh.type,
    OfpType.ofCode_code,Option.bind_some,hby]
  simp only [hevents,ok_bind]
  rfl

theorem tailOf_data {m pre : Bytes} {data : Option Bytes} {p : Nat} (hm : m = pre ++ data.getD [])
    (hp : pre.length = p) : tailOf m p = handedData data := by
  subst hm hp
  rw [tailOf,handedData,List.drop_left' rfl,List.length_append]
  cases data with
  | none => simp
  | some d =>
    by_cases hd : d = []
    · simp [hd]
    · have hpos : 0 < d.length := List.length_pos_iff.mpr hd
      simp only [Option.getD_some,hd,if_false]
      rw [if_pos (by omega)]

attribute [local simp] slice_append_right slice_append_left slice_whole slice_cons slice_head

theorem be32_xid {type : OfpType} {body : Bytes} : be32 (framed xid type body) 4 = xid := by
  simp [be32,framed,header]

theorem packetOut_delivered {bufferId : UInt32} {inPort : UInt16} {actions : Option OpenflowActions}
    {data : Option Bytes} (ha : (Construction.packetOut bufferId inPort actions data).Allowed)
    (hs : (Construction.packetOut bufferId inPort actions data).size ≤ 65535) {handlers : Handlers}
    (hreg : handlers .packetOut = true) :
    Yields (fun n => handlePacketOut n handlers (encode xid (.packetOut bufferId inPort actions data)))
      (.ok [.packetOut xid bufferId inPort (handedActions actions) (handedData data)]) := by
  simp only [Construction.size] at hs
  have hparts := hs
  simp only [Construction.body,List.length_append] at hparts
  have hall := built_allowed ha.2 (by omega)
  have hnet := length_netActions fun b hb => (hall b hb).isAction
  have hblocks : ∀ b ∈ (actionList actions).map (convertBlock .host), IsAction .net b := by
    intro b hb
    obtain ⟨c,hc,rfl⟩ := List.mem_map.mp hb
    exact (hall c hc).isAction.convert.1
  have hflat : ((actionList actions).map (convertBlock .host)).flatten = netActions actions := rfl
  have hh : Headed (encode xid (.packetOut bufferId inPort actions data)) .packetOut 0 65535 :=
    headed_framed hs (Nat.zero_le _) hs
  have hlen : be16 (encode xid (.packetOut bufferId inPort actions data)) 14 =
      UInt16.ofNat (actionList actions).flatten.length := by
    simp [be16,encode,framed,Construction.body]
  have hm : Holds (encode xid (.packetOut bufferId inPort actions data)) 16
      ((actionList actions).map (convertBlock .host)).flatten := by
    rw [encode,Construction.body,List.append_assoc _ (netActions actions)]
    exact (Holds.append.mp (holds_framed_tail (by simp))).1
  have hal : (be16 (encode xid (.packetOut bufferId inPort actions data)) 14).toNat =
      ((actionList actions).map (convertBlock .host)).flatten.length := by
    rw [hlen,UInt16.toNat_ofNat_of_lt' (show _ < 65536 by omega),hflat,hnet]
  have hroom : 16 + ((actionList actions).map (convertBlock .host)).flatten.length ≤
      (encode xid (.packetOut bufferId inPort actions data)).length := by
    rw [hflat,encode,length_framed]
    simp [Construction.body]
    omega
  have hy := handlePacketOut_yields hh.length hal hblocks hm hroom handlers
  have hid : be32 (encode xid (.packetOut bufferId inPort actions data)) 8 = bufferId := by
    simp [be32,encode,framed,Construction.body]
  have hport : be16 (encode xid (.packetOut bufferId inPort actions data)) 12 = inPort := by
    simp [be16,encode,framed,Construction.body]
  have htail : tailOf (encode xid (.packetOut bufferId inPort actions data))
      (16 + (netActions actions).length) = handedData data := by
    refine tailOf_data (show encode xid (.packetOut bufferId inPort actions data) =
      header xid .packetOut (8 + (Construction.packetOut bufferId inPort actions data).body.length) ++
        (toNet32 bufferId ++ toNet16 inPort ++
          toNet16 (UInt16.ofNat (actionList actions).flatten.length) ++ netActions actions) ++
        data.getD [] from ?_) ?_
    · simp [encode,framed,Construction.type,Construction.body]
    · simp
      omega
  rw [if_pos hreg,hid,hport,hflat,htail,
    hostActions_built ha.2.assembled (by omega)] at hy
  rwa [show be32 (encode xid (.packetOut bufferId inPort actions data)) 4 = xid from be32_xid] at hy

theorem flowMod_reads (mtch : OfpMatch) (cookie : UInt64)
    (command idleTimeout hardTimeout priority : UInt16) (bufferId : UInt32) (outPort flags : UInt16)
    (rest : Bytes) {m : Bytes} (hm : m = framed xid .flowMod (netMatch mtch ++ toNet64 cookie ++
      toNet16 command ++ toNet16 idleTimeout ++ toNet16 hardTimeout ++ toNet16 priority ++
      toNet32 bufferId ++ toNet16 outPort ++ toNet16 flags ++ rest)) :
    be32 m 4 = xid ∧ be64 m 48 = cookie ∧ be16 m 56 = command ∧ be16 m 58 = idleTimeout ∧
      be16 m 60 = hardTimeout ∧ be16 m 62 = priority ∧ be32 m 64 = bufferId ∧ be16 m 68 = outPort ∧
      be16 m 70 = flags := by
  subst hm
  refine ⟨be32_xid,?_,?_,?_,?_,?_,?_,?_,?_⟩ <;> simp [be16,be32,be64,framed]

theorem flowMod_delivered {mtch : OfpMatch} {cookie : UInt64}
    {command idleTimeout hardTimeout priority : UInt16} {bufferId : UInt32}
    {outPort flags : UInt16} {actions : Option OpenflowActions} (hbuilt : Assembled actions)
    (hs : (Construction.flowMod mtch cookie command idleTimeout hardTimeout priority bufferId outPort
      flags actions).size ≤ 65535) {handlers : Handlers} (hreg : handlers .flowMod = true) :
    Yields (fun n => handleFlowMod n handlers (encode xid (.flowMod mtch cookie command idleTimeout
      hardTimeout priority bufferId outPort flags actions)))
      (.ok [.flowMod xid mtch.unpadded cookie command idleTimeout hardTimeout priority bufferId
        outPort flags (handedActions actions)]) := by
  simp only [Construction.size] at hs
  have hparts := hs
  simp only [Construction.body,List.length_append] at hparts
  have hall := hbuilt.isAction (by omega)
  have hblocks : ∀ b ∈ (actionList actions).map (convertBlock .host), IsAction .net b := by
    intro b hb
    obtain ⟨c,hc,rfl⟩ := List.mem_map.mp hb
    exact (hall c hc).convert.1
  have hh : Headed (encode xid (.flowMod mtch cookie command idleTimeout hardTimeout priority bufferId
      outPort flags actions)) .flowMod 0 65535 := headed_framed hs (Nat.zero_le _) hs
  have hmin : 72 ≤ (encode xid (.flowMod mtch cookie command idleTimeout hardTimeout priority bufferId
      outPort flags actions)).length := by
    rw [encode,length_framed]
    simp [Construction.body]
    omega
  have htail : (encode xid (.flowMod mtch cookie command idleTimeout hardTimeout priority bufferId
      outPort flags actions)).drop 72 = ((actionList actions).map (convertBlock .host)).flatten := by
    rw [encode,show 72 = 8 + 64 from rfl,drop_framed,Construction.body]
    exact List.drop_left' (by simp)
  have hmatch : OfpMatch.ofHost (cells matchFields ((encode xid (.flowMod mtch cookie command
      idleTimeout hardTimeout priority bufferId outPort flags actions)).drop 8)) =
        mtch.unpadded := by
    rw [encode,show 8 = 8 + 0 from rfl,drop_framed,List.drop_zero,Construction.body]
    simp only [List.append_assoc]
    exact ofHost_netMatch mtch _
  have hy := handleFlowMod_yields hh.length hmin hblocks htail handlers
  obtain ⟨h4,h48,h56,h58,h60,h62,h64,h68,h70⟩ := flowMod_reads mtch cookie command idleTimeout
    hardTimeout priority bufferId outPort flags (netActions actions)
    (show encode xid (.flowMod mtch cookie command idleTimeout hardTimeout priority bufferId outPort
      flags actions) = _ from rfl)
  rwa [if_pos hreg,hostActions_built hbuilt (by omega),hmatch,h4,h48,h56,h58,h60,h62,h64,h68,h70]
    at hy

theorem undefinedCommand_accepted {mtch : OfpMatch} {cookie : UInt64}
    {command idleTimeout hardTimeout priority : UInt16} {bufferId : UInt32}
    {outPort flags : UInt16} {actions : Option OpenflowActions} (hmatch : validateMatch mtch = .ok ())
    (hcommand : ofpfcDeleteStrict < command)
    (hs : (Construction.flowMod mtch cookie command idleTimeout hardTimeout priority bufferId outPort
      flags actions).size ≤ 65535) :
    Yields (fun n => validateFlowMod n (encode xid (.flowMod mtch cookie command idleTimeout
      hardTimeout priority bufferId outPort flags actions))) (.ok ()) := by
  have hh : Headed (encode xid (.flowMod mtch cookie command idleTimeout hardTimeout priority bufferId
      outPort flags actions)) .flowMod 72 65535 := by
    refine headed_framed hs ?_ hs
    simp [Construction.body]
    omega
  have hmin := hh.lower
  obtain ⟨_,_,h56,_⟩ := flowMod_reads mtch cookie command idleTimeout hardTimeout priority bufferId
    outPort flags (netActions actions) (show encode xid (.flowMod mtch cookie command idleTimeout
      hardTimeout priority bufferId outPort flags actions) = _ from rfl)
  have hm : Holds (encode xid (.flowMod mtch cookie command idleTimeout hardTimeout priority bufferId
      outPort flags actions)) 8 (netMatch mtch) := by
    rw [encode]
    simp only [Construction.body,List.append_assoc]
    exact holds_framed_head
  obtain ⟨b,hconv,hof⟩ := ntohMatch_ok hm
  have hfields : flowModFields (encode xid (.flowMod mtch cookie command idleTimeout hardTimeout
      priority bufferId outPort flags actions)) = .ok 0 := by
    rw [flowModFields,hh.validated,ok_bind,hconv,ok_bind,hof]
    change (validateMatch mtch >>= fun _ => _) = _
    rw [hmatch,ok_bind,net16_inside (by omega),ok_bind,h56,if_pos hcommand]
    rfl
  exact (yields_after (fun _ => settled_onlyIf (settled_validateActions _ _ _)) _).mpr
    (.inl ⟨0,hfields,yields_ok rfl⟩)

theorem deliverable_accepted {c : Construction} (hd : Deliverable c) (hg : c.Guarded)
    (hs : c.size ≤ 65535) : Yields (fun n => validateOpenflowMessage n (encode xid c)) (.ok ()) := by
  cases c with
  | flowMod mtch cookie command idleTimeout hardTimeout priority bufferId outPort flags actions =>
    obtain ⟨hmatch,_,hallowed⟩ := hd
    by_cases hcommand : command ≤ ofpfcDeleteStrict
    · exact encode_accepted (hallowed hcommand) hg hs
    · exact validateOpenflowMessage_ok (headed_framed hs (Nat.zero_le _) hs)
        (undefinedCommand_accepted hmatch (UInt16.not_le.mp hcommand) hs)
  | _ => exact encode_accepted hd hg hs

theorem deliverable_encodable {c : Construction} (hd : Deliverable c) (hs : c.size ≤ 65535) :
    c.Encodable := by
  cases c with
  | flowMod mtch cookie command idleTimeout hardTimeout priority bufferId outPort flags actions =>
    simp only [Construction.size,Construction.body,List.length_append] at hs
    exact hd.2.1.isAction (by omega)
  | _ => exact encodable_of_allowed hd hs

end Handling

theorem messages_delivered (xid : UInt32) (c : Construction) (event : SwitchEvent)
    (handlers : Handlers) (hc : delivered xid c = some event) (hreg : handlers c.type = true)
    (hd : Deliverable c) (hg : c.Guarded) (hs : c.size ≤ 65535) :
    ∃ buffer, Yields (fun n => create n xid c) (.ok buffer) ∧
      Yields (fun n => handleOpenflowMessage n handlers buffer) (.ok ⟨true,[event]⟩) := by
  have hh : Headed (encode xid c) c.type 0 65535 := headed_framed hs (Nat.zero_le _) hs
  have hv : Yields (fun n => validateOpenflowMessage n (encode xid c)) (.ok ()) :=
    deliverable_accepted hd hg hs
  refine ⟨encode xid c,create_yields hg (deliverable_encodable hd hs) hs,?_⟩
  cases c with
  | packetOut bufferId inPort actions data =>
    injection hc with hc
    subst hc
    exact handleOpenflowMessage_yields hh hv (settled_handlePacketOut _ handlers) (fun _ => rfl)
      (packetOut_delivered hd hs hreg)
  | flowMod mtch cookie command idleTimeout hardTimeout priority bufferId outPort flags actions =>
    injection hc with hc
    subst hc
    exact handleOpenflowMessage_yields hh hv (settled_handleFlowMod _ handlers) (fun _ => rfl)
      (flowMod_delivered hd.2.1 hs hreg)
  | _ => exact absurd hc (by simp [delivered])

theorem vlanFlowMod_deliverable : Deliverable vlanFlowMod := by
  have ha := vlanFlowMod_allowed
  exact ⟨ha.1,ha.2.2.2.2.2.assembled,fun _ => ha⟩

theorem flow_mod_delivered :
    ∃ event, delivered 1 vlanFlowMod = some event ∧
      ∃ buffer, Yields (fun n => create n 1 vlanFlowMod) (.ok buffer) ∧
        Yields (fun n => handleOpenflowMessage n (fun _ => true) buffer) (.ok ⟨true,[event]⟩) := by
  exact ⟨_,rfl,messages_delivered 1 vlanFlowMod _ (fun _ => true) rfl rfl vlanFlowMod_deliverable
    trivial (by decide)⟩

def undefinedFlag : Construction :=
  .flowMod anyMatch 0 0 0 0 0 uint32Max ofppNone 8 none

theorem flow_mod_not_delivered :
    undefinedFlag.size ≤ 65535 ∧ Yields (fun n => create n 1 undefinedFlag)
      (.ok (encode 1 undefinedFlag)) ∧
    ¬ ∃ buffer event, Yields (fun n => create n 1 undefinedFlag) (.ok buffer) ∧
      Yields (fun n => handleOpenflowMessage n (fun _ => true) buffer) (.ok ⟨true,[event]⟩) := by
  have hs : undefinedFlag.size ≤ 65535 := by decide
  have hcreate : Yields (fun n => create n 1 undefinedFlag) (.ok (encode 1 undefinedFlag)) :=
    create_yields trivial (fun b hb => absurd hb (by simp [actionList])) hs
  refine ⟨hs,hcreate,?_⟩
  rintro ⟨buffer,event,⟨_,k,hk⟩,_,n,hn⟩
  obtain ⟨_,j,hj⟩ := hcreate
  have hsame : create k 1 undefinedFlag = create j 1 undefinedFlag := rfl
  simp only at hk hj
  rw [hsame,hj] at hk
  injection hk with hk
  subst hk
  have hgate : handleOpenflowMessage n (fun _ => true) (encode 1 undefinedFlag) =
      .ok ⟨false,[]⟩ := rfl
  simp only [hgate] at hn
  simp at hn

end Trema.OpenFlow
