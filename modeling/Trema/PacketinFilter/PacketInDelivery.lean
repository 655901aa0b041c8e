import Trema.OpenFlow.Creation
import Trema.OpenFlow.Contexts
import Trema.Packet.MatchFromPacket
import Trema.Packet.Parsing
import Trema.PacketinFilter.Deletion

namespace Trema.PacketinFilter

open Library
open OpenFlow (OfpMatch Exec abortIf createPacketIn createPacketIn_eq framed messengerOpenflowMessage)
open Packet (PacketInfo parsePacket setMatchFromPacket nwIpv4 tpEtherip etheripVersion EndsAtNetwork
  EndsAtTransport Layered parsePacket_yields settled_parsePacket)
open Table

-- A frame as parse_packet leaves it.
structure Frame where
  data : Bytes
  info : PacketInfo
  nonempty : data ≠ []
  parsed : ∃ fuel, parsePacket data fuel = .ok info

-- A packet-in as its handler is called, without a buffer where the message ends before the frame; it has come in an
-- OpenFlow message.
structure PacketIn where
  datapathId : UInt64
  transactionId : UInt32
  bufferId : UInt32
  totalLen : UInt16
  inPort : UInt16
  reason : UInt8
  data : Option Frame
  fits : 18 + ((data.map Frame.data).getD []).length ≤ 65535

structure Sending where
  serviceName : CString
  tag : UInt16
  data : Bytes
deriving DecidableEq

section Handling

variable (fuel : Nat)

def packetTypeIpv4Etherip (info : PacketInfo) : Bool := info.ifPacketType (nwIpv4 ||| tpEtherip)

def parseEtherip (frame : Frame) : Exec (Option PacketInfo) :=
  if frame.info.etheripVersion ≠ etheripVersion then pure none
  else if frame.info.etheripOffset = 0 then pure none
  else do
    -- remove_front_buffer asserts that the copy is long enough.
    abortIf (frame.data.length < frame.info.etheripOffset.toNat)
    some <$> parsePacket (frame.data.drop frame.info.etheripOffset.toNat) fuel

def matchedInfo (frame : Frame) : Exec PacketInfo := do
  let copy ← if packetTypeIpv4Etherip frame.info then parseEtherip fuel frame else pure none
  pure (copy.getD frame.info)

variable (p : PacketIn)

-- The packet info is read through the buffer, null or not.
def bufferOf : Exec Frame :=
  match p.data with
  | some frame => pure frame
  | none => .error .outOfBounds

def packetMatch : Exec OfpMatch := do
  let frame ← bufferOf p
  let info ← matchedInfo fuel frame
  pure (setMatchFromPacket 0 info p.inPort)

variable (sendMessage : CString → Bool)

-- What is sent: the first failure ends the loop.
def sendToServices (message : Bytes) : List CString → List Sending
  | [] => []
  | serviceName :: services =>
    if sendMessage serviceName then
      ⟨serviceName,messengerOpenflowMessage,message⟩ :: sendToServices message services
    else []

def handlePacketIn (t : FilterTable) : Exec (List Sending) := do
  let m ← packetMatch fuel p
  match lookupMatchEntry t m with
  | [] => pure []
  | services => do
    let buf ← createPacketIn p.transactionId p.bufferId p.totalLen p.inPort p.reason
      (p.data.map Frame.data)
    pure (sendToServices sendMessage (toNet64 p.datapathId ++ toNet16 0 ++ buf) services)

end Handling

def packetInMessage (p : PacketIn) : Bytes :=
  toNet64 p.datapathId ++ toNet16 0 ++ framed p.transactionId .packetIn (toNet32 p.bufferId ++
    toNet16 p.totalLen ++ toNet16 p.inPort ++ [p.reason,0] ++ (p.data.map Frame.data).getD [])

section Loop

variable {sendMessage : CString → Bool} {services : List CString} {s : CString}

def sentTo (s : CString) (sent : List Sending) : List Sending := sent.filter fun x => x.serviceName = s

theorem sentTo_missing (message : Bytes) (h : s ∉ services) :
    sentTo s (sendToServices sendMessage message services) = [] := by
  induction services with
  | nil => rfl
  | cons a services ih =>
    rw [sendToServices]
    split
    · rw [sentTo,List.filter_cons_of_neg (by simpa using fun heq => h (by simp [heq]))]
      exact ih fun hmem => h (by simp [hmem])
    · rfl

-- One service fails in the way of those behind it.
theorem sendToServices_iff (message : Bytes) (hnodup : services.Nodup) :
    (∀ s ∈ services, sendMessage s = true →
      sentTo s (sendToServices sendMessage message services) =
        [⟨s,messengerOpenflowMessage,message⟩]) ↔
      services.Pairwise fun a b => sendMessage b = true → sendMessage a = true := by
  induction services with
  | nil => simp
  | cons a services ih =>
    obtain ⟨hnot,hrest⟩ := List.nodup_cons.mp hnodup
    rw [List.pairwise_cons,← ih hrest,sendToServices]
    cases ha : sendMessage a with
    | false =>
      simp only [Bool.false_eq_true,if_false]
      constructor
      · intro h
        have hfails : ∀ b ∈ services, sendMessage b = false := by
          intro b hb
          by_contra hsucceeds
          exact absurd (h b (by simp [hb]) (by simpa using hsucceeds)) (by simp [sentTo])
        exact ⟨fun b hb hsucceeds => absurd hsucceeds (by simp [hfails b hb]),
          fun b hb hsucceeds => absurd hsucceeds (by simp [hfails b hb])⟩
      · rintro ⟨hfails,-⟩ b hb hsucceeds
        rcases List.mem_cons.mp hb with rfl | hb
        · exact absurd hsucceeds (by simp [ha])
        · exact absurd (hfails b hb hsucceeds) (by simp)
    | true =>
      simp only [if_true]
      have hother : ∀ b ∈ services,
          sentTo b (⟨a,messengerOpenflowMessage,message⟩ :: sendToServices sendMessage message services) =
            sentTo b (sendToServices sendMessage message services) := by
        intro b hb
        refine List.filter_cons_of_neg ?_
        simpa using fun heq : a = b => hnot (heq ▸ hb)
      constructor
      · exact fun h => ⟨fun _ _ _ => trivial,fun b hb hsucceeds =>
          (hother b hb).symm.trans (h b (by simp [hb]) hsucceeds)⟩
      · rintro ⟨-,h⟩ b hb hsucceeds
        rcases List.mem_cons.mp hb with rfl | hb
        · rw [sentTo,List.filter_cons_of_pos (by simp)]
          exact congrArg _ (sentTo_missing message hnot)
        · exact (hother b hb).trans (h b hb hsucceeds)

end Loop

section Delivery

theorem nodup_forwarded (requests : List Request) (m : OfpMatch) :
    (forwarded (filterTable requests) m).Nodup := by
  obtain ⟨s,h,hserved⟩ := represents_filterTable requests
  have hstored : ∀ e, winningEntry (filterTable requests) m = some e → e ∈ s := by
    intro e hwin
    rw [winningEntry_eq h,winning,Option.or_eq_some_iff] at hwin
    rcases hwin with hexact | ⟨-,hwild⟩
    · exact (List.mem_filter.mp (List.mem_of_find?_eq_some hexact)).1
    · have hmem := List.mem_of_find?_eq_some hwild
      rw [OrderedMap.wild,mem_ranked] at hmem
      exact (List.mem_filter.mp hmem).1
  rw [forwarded_eq]
  cases hwin : winningEntry (filterTable requests) m with
  | none => exact List.nodup_nil
  | some e => exact (hserved e (hstored e hwin)).2

theorem handlePacketIn_eq {fuel : Nat} {p : PacketIn} {m : OfpMatch} (hm : packetMatch fuel p = .ok m)
    (sendMessage : CString → Bool) (t : FilterTable) :
    handlePacketIn fuel p sendMessage t =
      .ok (sendToServices sendMessage (packetInMessage p) (forwarded t m)) := by
  rw [handlePacketIn,hm,ok_bind,forwarded]
  cases lookupMatchEntry t m with
  | nil => rfl
  | cons a services =>
    simp only
    rw [createPacketIn_eq (by exact p.fits),ok_bind]
    rfl

def DeliveredToAll (p : PacketIn) (sendMessage : CString → Bool) (t : FilterTable) : Prop :=
  ∃ m sent, Yields (fun fuel => packetMatch fuel p) (.ok m) ∧
    Yields (fun fuel => handlePacketIn fuel p sendMessage t) (.ok sent) ∧
    ∀ s ∈ forwarded t m, sendMessage s = true →
      sentTo s sent = [⟨s,messengerOpenflowMessage,packetInMessage p⟩]

end Delivery

section Inner

variable {p : PacketIn} {frame : Frame}

-- The frame in an EtherIP packet that is parsed in the packet's place.
def Frame.inner (frame : Frame) : Option Bytes :=
  if packetTypeIpv4Etherip frame.info = true ∧ frame.info.etheripVersion = etheripVersion ∧
      frame.info.etheripOffset ≠ 0 then
    some (frame.data.drop frame.info.etheripOffset.toNat)
  else none

-- There is a frame, and the parser takes the one in it as well.
def PacketIn.Parsed (p : PacketIn) : Prop :=
  ∃ frame, p.data = some frame ∧ ∀ inner, frame.inner = some inner →
    ¬ (EndsAtNetwork inner ∨ EndsAtTransport inner)

theorem Frame.layered (frame : Frame) : Layered frame.data frame.info := by
  obtain ⟨fuel,hparsed⟩ := frame.parsed
  have hyields : Yields (fun n => parsePacket frame.data n) (.ok frame.info) := ⟨by simp,fuel,hparsed⟩
  rcases parsePacket_yields frame.data with ⟨_,habort⟩ | ⟨_,info,hinfo,hlayered⟩
  · exact absurd ((settled_parsePacket _).yields_unique hyields habort) (by simp)
  · have hsame := (settled_parsePacket _).yields_unique hyields hinfo
    injection hsame with hsame
    rw [hsame]
    exact hlayered

theorem Frame.offset_le (frame : Frame) (hsmall : frame.data.length ≤ 65535) :
    frame.info.etheripOffset.toNat ≤ frame.data.length := by
  rcases frame.layered.etherip hsmall with hzero | ⟨hpayload,_⟩
  · rw [hzero]
    exact Nat.zero_le _
  · obtain ⟨_,_,_,hlt,_⟩ := frame.layered.l4Payload _ hpayload
    exact hlt.le

-- What the frame is matched by: the packet info of the frame in it, where that one is parsed.
theorem matchedInfo_eq (frame : Frame) (hsmall : frame.data.length ≤ 65535) (fuel : Nat) :
    matchedInfo fuel frame = frame.inner.elim (.ok frame.info) fun inner => parsePacket inner fuel := by
  have hlong : ¬ frame.data.length < frame.info.etheripOffset.toNat := Nat.not_lt.mpr (frame.offset_le hsmall)
  rw [matchedInfo,parseEtherip,Frame.inner]
  by_cases hetherip : packetTypeIpv4Etherip frame.info = true
  · by_cases hversion : frame.info.etheripVersion = etheripVersion
    · by_cases hoffset : frame.info.etheripOffset = 0
      · rw [if_pos hetherip,if_neg (not_not.mpr hversion),if_pos hoffset,if_neg (by simp [hoffset])]
        rfl
      · rw [if_pos hetherip,if_neg (not_not.mpr hversion),if_neg hoffset,if_pos ⟨hetherip,hversion,hoffset⟩,
          abortIf,if_neg hlong,ok_bind,Option.elim_some]
        cases parsePacket (frame.data.drop frame.info.etheripOffset.toNat) fuel with
        | ok info => rfl
        | error stop => rfl
    · rw [if_pos hetherip,if_pos hversion,if_neg (by simp [hversion])]
      rfl
  · rw [if_neg hetherip,if_neg (by simp [hetherip])]
    rfl

theorem settled_matchedInfo (frame : Frame) (hsmall : frame.data.length ≤ 65535) :
    Settled (fun fuel => matchedInfo fuel frame) := by
  simp only [matchedInfo_eq frame hsmall]
  cases frame.inner with
  | none => exact settled_const _
  | some inner => exact settled_parsePacket inner

theorem matchedInfo_iff (frame : Frame) (hsmall : frame.data.length ≤ 65535) :
    (∃ info, Yields (fun fuel => matchedInfo fuel frame) (.ok info)) ↔
      ∀ inner, frame.inner = some inner → ¬ (EndsAtNetwork inner ∨ EndsAtTransport inner) := by
  simp only [matchedInfo_eq frame hsmall]
  cases frame.inner with
  | none => exact iff_of_true ⟨frame.info,yields_ok rfl⟩ (by simp)
  | some inner =>
    simp only [Option.elim_some,Option.some.injEq,forall_eq']
    rcases parsePacket_yields inner with ⟨hends,habort⟩ | ⟨hends,info,hinfo,_⟩
    · refine iff_of_false ?_ (not_not.mpr hends)
      rintro ⟨info,hinfo⟩
      exact absurd ((settled_parsePacket inner).yields_unique hinfo habort) (by simp)
    · exact iff_of_true ⟨info,hinfo⟩ hends

theorem PacketIn.small (hdata : p.data = some frame) : frame.data.length ≤ 65535 := by
  have hfits := p.fits
  rw [hdata,Option.map_some,Option.getD_some] at hfits
  omega

theorem packetMatch_eq (hdata : p.data = some frame) (fuel : Nat) : packetMatch fuel p =
    matchedInfo fuel frame >>= fun info => .ok (setMatchFromPacket 0 info p.inPort) := by
  rw [packetMatch,bufferOf,hdata]
  rfl

theorem packetMatch_null (hdata : p.data = none) (fuel : Nat) : packetMatch fuel p = .error .outOfBounds := by
  rw [packetMatch,bufferOf,hdata]
  rfl

theorem settled_packetMatch (p : PacketIn) : Settled (fun fuel => packetMatch fuel p) := by
  cases hdata : p.data with
  | none =>
    simp only [packetMatch_null hdata]
    exact settled_const _
  | some frame =>
    simp only [packetMatch_eq hdata]
    exact settled_bind (settled_matchedInfo frame (p.small hdata)) fun _ => settled_const _

theorem matched_iff (p : PacketIn) : (∃ m, Yields (fun fuel => packetMatch fuel p) (.ok m)) ↔ p.Parsed := by
  cases hdata : p.data with
  | none =>
    refine iff_of_false ?_ (by simp [PacketIn.Parsed,hdata])
    rintro ⟨m,_,fuel,hm⟩
    exact absurd ((packetMatch_null hdata fuel).symm.trans hm) (by simp)
  | some frame =>
    simp only [PacketIn.Parsed,hdata,Option.some.injEq,exists_eq_left',packetMatch_eq hdata]
    rw [← matchedInfo_iff frame (p.small hdata)]
    constructor
    · rintro ⟨m,_,fuel,hm⟩
      obtain ⟨info,hinfo,_⟩ := bind_eq_ok.mp hm
      exact ⟨info,by simp,fuel,hinfo⟩
    · rintro ⟨info,_,fuel,hinfo⟩
      exact ⟨setMatchFromPacket 0 info p.inPort,by simp,fuel,bind_eq_ok.mpr ⟨info,hinfo,rfl⟩⟩

theorem handlePacketIn_yields {m : OfpMatch} (hm : Yields (fun fuel => packetMatch fuel p) (.ok m))
    (sendMessage : CString → Bool) (t : FilterTable) {r : Exec (List Sending)} :
    Yields (fun fuel => handlePacketIn fuel p sendMessage t) r ↔
      r = .ok (sendToServices sendMessage (packetInMessage p) (forwarded t m)) := by
  constructor
  · rintro ⟨hr,fuel,hfuel⟩
    have hdone : packetMatch fuel p ≠ .error .outOfFuel := by
      intro hno
      have hstop : handlePacketIn fuel p sendMessage t = .error .outOfFuel := by
        rw [handlePacketIn,hno]
        rfl
      exact hr (hfuel.symm.trans hstop)
    have hsame := (settled_packetMatch p).yields_eq hm hdone
    rw [← hfuel]
    exact handlePacketIn_eq hsame sendMessage t
  · rintro rfl
    obtain ⟨_,fuel,hfuel⟩ := hm
    exact ⟨by simp,fuel,handlePacketIn_eq hfuel sendMessage t⟩

end Inner

theorem delivered_iff (requests : List Request) (p : PacketIn) (sendMessage : CString → Bool) :
    DeliveredToAll p sendMessage (filterTable requests) ↔
      p.Parsed ∧ ∀ m, Yields (fun fuel => packetMatch fuel p) (.ok m) →
        (forwarded (filterTable requests) m).Pairwise fun a b => sendMessage b = true → sendMessage a = true := by
  rw [← matched_iff]
  constructor
  · rintro ⟨m,sent,hm,hsent,hall⟩
    refine ⟨⟨m,hm⟩,fun m' hm' => ?_⟩
    have hsame := (settled_packetMatch p).yields_unique hm' hm
    injection hsame with hsame
    rw [handlePacketIn_yields hm] at hsent
    injection hsent with hsent
    rw [hsame,← sendToServices_iff (packetInMessage p) (nodup_forwarded requests m),← hsent]
    exact hall
  · rintro ⟨⟨m,hm⟩,hordered⟩
    refine ⟨m,_,hm,(handlePacketIn_yields hm _ _).mpr rfl,?_⟩
    exact (sendToServices_iff (packetInMessage p) (nodup_forwarded requests m)).mpr (hordered m hm)

section Instances

def linkFrame : Frame where
  data := [1,2,3,4,5,6,7,8,9,10,11,12,0x88,0xb5]
  info :=
    { format := 1
      l2Header := some 0
      ethMacda := ⟨1,2,3,4,5,6⟩
      ethMacsa := ⟨7,8,9,10,11,12⟩
      ethType := 0x88b5 }
  nonempty := by decide
  parsed := ⟨4,by decide +kernel⟩

def linkPacketIn : PacketIn where
  datapathId := 1
  transactionId := 2
  bufferId := 3
  totalLen := 14
  inPort := 1
  reason := 0
  data := some linkFrame
  fits := by decide

def overloaded (s : CString) : Bool := s ≠ named 120 (by decide)

theorem failure_stops_delivery :
    ¬ DeliveredToAll linkPacketIn overloaded (filterTable [.add anyPacket 0 (named 120 (by decide)),
      .add anyPacket 0 (named 121 (by decide))]) := by
  have hm : Yields (fun fuel => packetMatch fuel linkPacketIn)
      (.ok (setMatchFromPacket 0 linkFrame.info linkPacketIn.inPort)) := ⟨by simp,0,rfl⟩
  have hforwarded : forwarded (filterTable [.add anyPacket 0 (named 120 (by decide)),
      .add anyPacket 0 (named 121 (by decide))]) (setMatchFromPacket 0 linkFrame.info linkPacketIn.inPort) =
      [named 120 (by decide),named 121 (by decide)] := by decide +kernel
  rintro ⟨m,sent,hm',hsent,hall⟩
  have hsame := (settled_packetMatch linkPacketIn).yields_unique hm' hm
  injection hsame with hsame
  rw [handlePacketIn_yields hm'] at hsent
  injection hsent with hsent
  rw [hsame,hforwarded] at hall hsent
  have hlost := hall (named 121 (by decide)) (by simp) (by decide)
  rw [hsent] at hlost
  exact absurd hlost (by simp [sendToServices,sentTo,overloaded])

end Instances

end Trema.PacketinFilter
