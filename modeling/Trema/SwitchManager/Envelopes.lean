import Trema.SwitchManager.ServiceInterface

namespace Trema.SwitchManager

open Library
open OpenFlow (Exec abortIf messengerOpenflowMessage validateOpenflowMessage ReadsInside
  validateOpenflowMessage_noFault validateOpenflowMessage_ne_aborted)
open SecureChannel

abbrev nameLength (data : Bytes) : Nat := (be16 data 8).toNat

def openflowPart (data : Bytes) : Bytes := data.drop (10 + nameLength data)

-- The name is there and ends in the terminator, so that the OpenFlow part is looked at.
def Named (data : Bytes) : Prop :=
  10 ≤ data.length ∧ nameLength data ≠ 0 ∧ 10 + nameLength data ≤ data.length ∧ hostByte data (9 + nameLength data) = 0

def enclosed (data : Bytes) : Envelope := ⟨be64 data 0,(data.drop 10).takeWhile (· ≠ 0),openflowPart data⟩

section Reading

variable {buf : Buffer} {data : Bytes}

theorem readEnvelope_short (hb : buf.Inside) (hdata : buf.bytes = data) (h : data.length < 10) :
    readEnvelope buf = .ok none := by
  rw [readEnvelope,if_pos (by rw [← hb.length_bytes,hdata]; exact h)]
  rfl

theorem readEnvelope_long (hb : buf.Inside) (hdata : buf.bytes = data) (h : 10 ≤ data.length) :
    ∃ rest : Buffer, rest.Inside ∧ rest.bytes = data.drop 10 ∧
      readEnvelope buf = readServiceName (be64 data 0) (be16 data 8) rest := by
  have hlen : buf.length = data.length := by rw [← hb.length_bytes,hdata]
  refine ⟨_,hb.removeFront (by omega),(bytes_removeFront buf 10).trans (by rw [hdata]),?_⟩
  rw [readEnvelope,if_neg (by omega),hdata,net64_inside (by omega),ok_bind,net16_inside (by omega),ok_bind,
    removeFrontBuffer_ok (by omega) (by omega),ok_bind]

theorem nameLength_pos (h : nameLength data ≠ 0) : ¬ be16 data 8 < 1 := by
  rw [UInt16.lt_iff_toNat_lt]
  exact fun hlt => h (Nat.lt_one_iff.mp hlt)

theorem readEnvelope_unnamed (hb : buf.Inside) (hdata : buf.bytes = data) (h : 10 ≤ data.length)
    (hname : nameLength data = 0) : readEnvelope buf = .ok none := by
  obtain ⟨rest,_,_,hread⟩ := readEnvelope_long hb hdata h
  have hzero : be16 data 8 < 1 := by
    rw [UInt16.lt_iff_toNat_lt]
    exact Nat.lt_of_le_of_lt (Nat.le_of_eq hname) Nat.one_pos
  rw [hread,readServiceName,if_pos hzero]
  rfl

theorem readEnvelope_overlong (hb : buf.Inside) (hdata : buf.bytes = data) (h : 10 ≤ data.length)
    (hlong : data.length < 10 + nameLength data) : readEnvelope buf = .error .outOfBounds := by
  obtain ⟨rest,_,hrest,hread⟩ := readEnvelope_long hb hdata h
  have hover : (byteAt (data.drop 10) (nameLength data - 1) : Exec UInt8) = .error .outOfBounds := by
    rw [byteAt_eq_error,List.length_drop]
    exact ⟨by omega,rfl⟩
  rw [hread,readServiceName,if_neg (nameLength_pos (by omega)),hrest]
  rw [hover]
  rfl

theorem byteAt_last (hname : nameLength data ≠ 0) (hfits : 10 + nameLength data ≤ data.length) :
    (byteAt (data.drop 10) (nameLength data - 1) : Exec UInt8) = .ok (hostByte data (9 + nameLength data)) := by
  have hplace : 10 + (nameLength data - 1) = 9 + nameLength data := by omega
  rw [byteAt_inside (by rw [List.length_drop]; omega),hostByte,slice_drop,hostByte,hplace]

theorem readEnvelope_named (hb : buf.Inside) (hdata : buf.bytes = data) (h : 10 ≤ data.length)
    (hname : nameLength data ≠ 0) (hfits : 10 + nameLength data ≤ data.length) :
    readEnvelope buf = .ok (if hostByte data (9 + nameLength data) ≠ 0 then none else some (enclosed data)) := by
  obtain ⟨rest,hinside,hrest,hread⟩ := readEnvelope_long hb hdata h
  have hlength : rest.length = data.length - 10 := by rw [← hinside.length_bytes,hrest,List.length_drop]
  have hlast := byteAt_last hname hfits
  rw [hread,readServiceName,if_neg (nameLength_pos hname),hrest]
  rw [hlast,ok_bind]
  by_cases hz : hostByte data (9 + nameLength data) = 0
  · rw [if_neg (not_not.mpr hz),if_neg (not_not.mpr hz),removeFrontBuffer_ok (Nat.pos_of_ne_zero hname) (by omega),
      ok_bind,bytes_removeFront,hrest,List.drop_drop]
    rfl
  · rw [if_pos hz,if_pos hz]
    rfl

end Reading

section Receiving

variable {heap : Nat → UInt8} {messageType : UInt16} {data : Bytes} {e : Envelope}

theorem serviceRecv_empty (n : Nat) : serviceRecv heap n messageType [] = .error .aborted := rfl

theorem serviceRecv_filled (heap : Nat → UInt8) (messageType : UInt16) (hne : data ≠ []) : ∃ buf : Buffer, buf.Inside ∧
    buf.bytes = data ∧ ∀ n, serviceRecv heap n messageType data = serviceRecvFromApplication n messageType buf := by
  obtain ⟨msg,b,buf,happend,hmsg,hput,hextended⟩ := append_put heap (inside_alloc heap data.length) hne
  refine ⟨buf,hextended.inside,?_,fun n => ?_⟩
  · rw [hextended.bytes,bytes_alloc,List.nil_append]
  · rw [serviceRecv,allocBufferWithLength_ok heap (List.length_pos_iff.mpr hne),ok_bind,happend,ok_bind]
    simp only [hput,ok_bind]

theorem serviceRecv_overlong (h : 10 ≤ data.length) (hlong : data.length < 10 + nameLength data) (n : Nat) :
    serviceRecv heap n messageType data = .error .outOfBounds := by
  obtain ⟨buf,hb,hdata,hrecv⟩ := serviceRecv_filled heap messageType (List.ne_nil_of_length_pos (show 0 < data.length by omega))
  rw [hrecv,serviceRecvFromApplication,readEnvelope_overlong hb hdata h hlong]
  rfl

theorem serviceRecv_unnamed (hne : data ≠ []) (hfits : 10 ≤ data.length → 10 + nameLength data ≤ data.length)
    (hnamed : ¬ Named data) (n : Nat) : serviceRecv heap n messageType data = .ok .dropped := by
  obtain ⟨buf,hb,hdata,hrecv⟩ := serviceRecv_filled heap messageType hne
  have hread : readEnvelope buf = .ok none := by
    by_cases hlen : 10 ≤ data.length
    · by_cases hname : nameLength data = 0
      · exact readEnvelope_unnamed hb hdata hlen hname
      · have hlast : hostByte data (9 + nameLength data) ≠ 0 := fun hz => hnamed ⟨hlen,hname,hfits hlen,hz⟩
        rw [readEnvelope_named hb hdata hlen hname (hfits hlen),if_pos hlast]
    · exact readEnvelope_short hb hdata (by omega)
  rw [hrecv,serviceRecvFromApplication,hread]
  rfl

theorem serviceRecv_named (h : Named data) (n : Nat) : serviceRecv heap n messageType data =
    if messageType = messengerOpenflowMessage then handleOpenflowMessage n (enclosed data)
    else if messageType = messengerOpenflowDisconnectRequest then .ok (.disconnectRequest (be64 data 0))
    else .ok .dropped := by
  obtain ⟨hlen,hname,hfits,hlast⟩ := h
  obtain ⟨buf,hb,hdata,hrecv⟩ := serviceRecv_filled heap messageType (List.ne_nil_of_length_pos (show 0 < data.length by omega))
  rw [hrecv,serviceRecvFromApplication,readEnvelope_named hb hdata hlen hname hfits,if_neg (not_not.mpr hlast)]
  rfl

theorem handleOpenflowMessage_outOfBounds (n : Nat) : handleOpenflowMessage n e = .error .outOfBounds ↔
    validateOpenflowMessage n e.message = .error .outOfBounds := by
  rw [handleOpenflowMessage]
  cases validateOpenflowMessage n e.message with
  | ok u => simp [pure_eq_ok]
  | error stop => cases stop <;> simp [pure_eq_ok]

theorem handleOpenflowMessage_ne_aborted (n : Nat) : handleOpenflowMessage n e ≠ .error .aborted := by
  have hnever := validateOpenflowMessage_ne_aborted n e.message
  rw [handleOpenflowMessage]
  cases hv : validateOpenflowMessage n e.message with
  | ok u => simp [pure_eq_ok]
  | error stop =>
    cases stop with
    | aborted => exact absurd hv hnever
    | outOfFuel => simp
    | outOfBounds => simp
    | rejected error => simp [pure_eq_ok]

theorem validate_header_cut {message : Bytes} (h : message.length < 8) (n : Nat) :
    validateOpenflowMessage n message = .error .outOfBounds := by
  have hload : (load message 0 8 : Exec Bytes) = .error .outOfBounds := load_eq_error.mpr ⟨by omega,rfl⟩
  rw [validateOpenflowMessage,hload]
  rfl

variable (heap messageType data)

def Contained : Prop :=
  ∀ n, serviceRecv heap n messageType data ≠ .error .outOfBounds ∧ serviceRecv heap n messageType data ≠ .error .aborted

-- The name is longer than what is left, or the OpenFlow part is no header.
def Malformed : Prop :=
  10 ≤ data.length ∧ (data.length < 10 + nameLength data ∨
    messageType = messengerOpenflowMessage ∧ Named data ∧ (openflowPart data).length < 8)

structure Sound : Prop where
  nonempty : data ≠ []
  name : 10 ≤ data.length → 10 + nameLength data ≤ data.length
  message : messageType = messengerOpenflowMessage → Named data →
    8 ≤ (openflowPart data).length ∧ ReadsInside (openflowPart data)

variable {heap messageType data}

theorem Sound.contained (h : Sound messageType data) : Contained heap messageType data := by
  intro n
  by_cases hnamed : Named data
  · rw [serviceRecv_named hnamed]
    by_cases hopen : messageType = messengerOpenflowMessage
    · obtain ⟨hlen,hreads⟩ := h.message hopen hnamed
      have hvalid := (validateOpenflowMessage_noFault hlen).mpr hreads n
      rw [if_pos hopen]
      exact ⟨fun hbad => hvalid ((handleOpenflowMessage_outOfBounds n).mp hbad),handleOpenflowMessage_ne_aborted n⟩
    · rw [if_neg hopen]
      split <;> simp
  · rw [serviceRecv_unnamed h.nonempty h.name hnamed]
    simp

theorem Contained.sound (h : Contained heap messageType data) : Sound messageType data where
  nonempty := by
    rintro rfl
    exact (h 0).2 (serviceRecv_empty 0)
  name := fun hlen => by
    refine Nat.le_of_not_lt fun hlong => ?_
    exact (h 0).1 (serviceRecv_overlong hlen hlong 0)
  message := fun hopen hnamed => by
    have hrecv : ∀ n, validateOpenflowMessage n (openflowPart data) ≠ .error .outOfBounds := by
      intro n hbad
      refine (h n).1 ?_
      rw [serviceRecv_named hnamed,if_pos hopen]
      exact (handleOpenflowMessage_outOfBounds n).mpr hbad
    have hlen : 8 ≤ (openflowPart data).length :=
      Nat.le_of_not_lt fun hcut => hrecv 0 (validate_header_cut hcut 0)
    exact ⟨hlen,(validateOpenflowMessage_noFault hlen).mp hrecv⟩

theorem Sound.not_malformed (h : Sound messageType data) : ¬ Malformed messageType data := by
  rintro ⟨hlen,hlong | ⟨hopen,hnamed,hcut⟩⟩
  · exact Nat.not_lt_of_le (h.name hlen) hlong
  · exact Nat.not_lt_of_le (h.message hopen hnamed).1 hcut

end Receiving

section Sending

variable {serviceName : ServiceName} {datapathId : UInt64} {message : Bytes}

def envelopeImage (serviceName : ServiceName) (datapathId : UInt64) (message : Bytes) : Bytes :=
  toNet64 datapathId ++ toNet16 (UInt16.ofNat (serviceName.bytes.length + 1)) ++ serviceName.bytes ++ [0] ++ message

theorem sendOpenflowMessage_image (hne : message ≠ []) : sendOpenflowMessage serviceName datapathId message =
    .ok ⟨remoteServiceName datapathId,messengerOpenflowMessage,envelopeImage serviceName datapathId message⟩ := by
  have hfits : serviceName.bytes.length < 32 := serviceName.fits
  have hsize : (UInt16.ofNat (10 + serviceName.bytes.length + 1)).toNat = 10 + (serviceName.bytes.length + 1) := by
    rw [Nat.add_assoc]
    exact Nat.mod_eq_of_lt (by omega)
  have hname : List.replicate (serviceName.bytes.length + 1) (0 : UInt8) =
      List.replicate serviceName.bytes.length 0 ++ [0] := List.replicate_succ'
  have hempty : ¬ message.length = 0 := fun hz => hne (List.length_eq_zero_iff.mp hz)
  have habort : (abortIf (message.length = 0) : Exec Unit) = .ok () := abortIf_false hempty
  have hheader : (toNet64 datapathId ++ toNet16 (UInt16.ofNat (serviceName.bytes.length + 1))).length = 10 := by simp
  have hfront : (store (List.replicate 10 0 ++ List.replicate (serviceName.bytes.length + 1) 0 ++ message) 0
      (toNet64 datapathId ++ toNet16 (UInt16.ofNat (serviceName.bytes.length + 1))) : Exec Bytes) =
        .ok (toNet64 datapathId ++ toNet16 (UInt16.ofNat (serviceName.bytes.length + 1)) ++
          List.replicate (serviceName.bytes.length + 1) 0 ++ message) := by
    rw [List.append_assoc,List.append_assoc _ (List.replicate _ _)]
    exact store_append [] (List.replicate 10 0) _ _ (by rw [hheader,List.length_replicate])
  have hback : (store (toNet64 datapathId ++ toNet16 (UInt16.ofNat (serviceName.bytes.length + 1)) ++
      List.replicate (serviceName.bytes.length + 1) 0 ++ message) 10 serviceName.bytes : Exec Bytes) =
        .ok (envelopeImage serviceName datapathId message) := by
    have hstore := @store_append OpenFlow.ValidationError (toNet64 datapathId ++
      toNet16 (UInt16.ofNat (serviceName.bytes.length + 1))) (List.replicate serviceName.bytes.length 0) ([0] ++ message)
      serviceName.bytes (by rw [List.length_replicate])
    rw [hheader] at hstore
    rw [hname,envelopeImage]
    simp only [List.append_assoc] at hstore ⊢
    exact hstore
  rw [sendOpenflowMessage,habort,ok_bind]
  simp only [hsize]
  rw [List.replicate_add,hfront,ok_bind,hback,ok_bind]
  rfl

theorem drop_image : (envelopeImage serviceName datapathId message).drop 10 = serviceName.bytes ++ 0 :: message := by
  have hheader : (toNet64 datapathId ++ toNet16 (UInt16.ofNat (serviceName.bytes.length + 1))).length = 10 := by simp
  rw [envelopeImage,List.append_assoc,List.append_assoc,← hheader,List.drop_left]
  rfl

theorem nameLength_image : nameLength (envelopeImage serviceName datapathId message) = serviceName.bytes.length + 1 := by
  have hfits : serviceName.bytes.length < 32 := serviceName.fits
  rw [nameLength,be16,envelopeImage,List.append_assoc,List.append_assoc,List.append_assoc,
    slice_append_right _ (by simp),length_toNet64,slice_append_left (by simp),slice_whole (by simp),ofNat_beNat_toNet16]
  exact Nat.mod_eq_of_lt (by omega)

theorem length_image : (envelopeImage serviceName datapathId message).length =
    10 + (serviceName.bytes.length + 1) + message.length := by
  simp [envelopeImage]
  omega

theorem named_image : Named (envelopeImage serviceName datapathId message) := by
  refine ⟨?_,?_,?_,?_⟩
  · rw [length_image]
    omega
  · rw [nameLength_image]
    omega
  · rw [nameLength_image,length_image]
    omega
  · have hplace : 9 + (serviceName.bytes.length + 1) = 10 + serviceName.bytes.length := by omega
    rw [nameLength_image,hplace,hostByte,← slice_drop,drop_image,slice_append_right _ (Nat.le_refl _),Nat.sub_self]
    rfl

theorem enclosed_image : enclosed (envelopeImage serviceName datapathId message) =
    ⟨datapathId,serviceName.bytes,message⟩ := by
  have hid : be64 (envelopeImage serviceName datapathId message) 0 = datapathId := by
    rw [be64,envelopeImage,List.append_assoc,List.append_assoc,List.append_assoc,slice_append_left (by simp),
      slice_whole (by simp),ofNat_beNat_toNet64]
  have hpart : openflowPart (envelopeImage serviceName datapathId message) = message := by
    rw [openflowPart,nameLength_image,← List.drop_drop,drop_image,← List.drop_drop,List.drop_left]
    rfl
  rw [enclosed,hid,hpart,drop_image,serviceName.takeWhile_bytes]

end Sending

theorem application_messages_contained_iff (heap : Nat → UInt8) (messageType : UInt16) (data : Bytes) :
    (Contained heap messageType data ∧
      (Malformed messageType data → ∀ n, serviceRecv heap n messageType data = .ok .dropped) ↔ Sound messageType data) ∧
    ∀ (serviceName : ServiceName) (datapathId : UInt64) (message : Bytes), message ≠ [] →
      ∃ sending, sendOpenflowMessage serviceName datapathId message = .ok sending ∧
        ∀ n, serviceRecv heap n sending.tag sending.data =
          handleOpenflowMessage n ⟨datapathId,serviceName.bytes,message⟩ := by
  refine ⟨?_,fun serviceName datapathId message hne => ?_⟩
  · constructor
    · exact fun h => h.1.sound
    · exact fun h => ⟨h.contained,fun hbad => absurd hbad h.not_malformed⟩
  · refine ⟨_,sendOpenflowMessage_image hne,fun n => ?_⟩
    rw [serviceRecv_named named_image,if_pos rfl,enclosed_image]

def overlongName : Bytes := [0,0,0,0,0,0,0,1,0,9,97,0]

theorem application_message_overruns : ¬ ∀ (heap : Nat → UInt8) messageType data, Contained heap messageType data ∧
    (Malformed messageType data → ∀ n, serviceRecv heap n messageType data = .ok .dropped) := by
  intro h
  exact ((h (fun _ => 0) messengerOpenflowMessage overlongName).1 0).1 (serviceRecv_overlong (by decide) (by decide) 0)

end Trema.SwitchManager
