import Trema.PacketinFilter.Reply

namespace Trema.PacketinFilter

open Library
open OpenFlow (OfpMatch matchFields netMatch length_netMatch ofHost_netMatch)
open Table

section Names

theorem serviceNameField_short {s : CString} (h : s.bytes.length ≤ 31) :
    (serviceNameField s).takeWhile (· ≠ 0) = s.bytes := by
  have hpad : 32 - s.bytes.length = (31 - s.bytes.length) + 1 := by omega
  have hfield : serviceNameField s = s.bytes ++ List.replicate (32 - s.bytes.length) 0 := by
    rw [serviceNameField,strncpy,List.take_of_length_le (by omega),List.set_append_right _ _ h]
    refine congrArg _ (List.ext_getElem (by simp) fun i h₁ h₂ => ?_)
    simp
  rw [hfield,hpad,List.replicate_succ]
  exact s.takeWhile_bytes _

theorem length_takeWhile_serviceNameField (s : CString) :
    ((serviceNameField s).takeWhile (· ≠ 0)).length ≤ 31 := by
  by_contra hlong
  have hall := List.takeWhile_prefix (l := serviceNameField s) (fun c => decide (c ≠ 0))
  have hlen := length_serviceNameField s
  have hle := hall.length_le
  have heq : (serviceNameField s).takeWhile (fun c => decide (c ≠ 0)) = serviceNameField s :=
    hall.eq_of_length (by omega)
  have hlast : (serviceNameField s)[31]? = some 0 := by
    rw [serviceNameField,List.getElem?_set_self (by simp [strncpy]; omega)]
  have hmem : (0 : UInt8) ∈ (serviceNameField s).takeWhile fun c => decide (c ≠ 0) := by
    rw [heq]
    exact List.mem_of_getElem? hlast
  exact absurd (List.all_eq_true.mp List.all_takeWhile 0 hmem) (by simp)

end Names

section Decoding

theorem ntoh_slice (data : Bytes) (p : Nat) :
    ntohPacketinFilterEntry data p = ntohPacketinFilterEntry (slice data p 74) 0 := by
  simp only [ntohPacketinFilterEntry,be16,Nat.zero_add]
  rw [slice_slice (by omega),slice_slice (by omega),slice_slice (by omega)]
  rfl

theorem ntoh_entryBytes (m : OfpMatch) (priority : UInt16) (s : CString) :
    ntohPacketinFilterEntry (entryBytes m priority s) 0 =
      ⟨m.unpadded,priority,serviceNameField s⟩ := by
  have hmatch : slice (entryBytes m priority s) 0 40 = netMatch m := by
    rw [entryBytes,List.append_assoc,slice_append_left (by simp)]
    exact slice_whole (length_netMatch m)
  have hpriority : slice (entryBytes m priority s) (0 + 40) 2 = toNet16 priority := by
    rw [entryBytes,List.append_assoc,slice_append_right _ (by simp),slice_append_left (by simp)]
    simp [slice_whole]
  have hname : slice (entryBytes m priority s) (0 + 42) 32 = serviceNameField s := by
    rw [entryBytes,slice_append_right _ (by simp)]
    simp [slice_whole,length_serviceNameField]
  have hhost := ofHost_netMatch m []
  rw [List.append_nil] at hhost
  rw [ntohPacketinFilterEntry,be16,hmatch,hpriority,hname,hhost,ofNat_beNat_toNet16]

theorem decode_blocks {blocks : List Bytes} (h : ∀ b ∈ blocks, b.length = 74) (pre : Bytes) :
    ((List.range blocks.length).map fun i =>
      ntohPacketinFilterEntry (pre ++ blocks.flatten) (pre.length + 74 * i)) =
        blocks.map fun b => ntohPacketinFilterEntry b 0 := by
  induction blocks generalizing pre with
  | nil => rfl
  | cons b blocks ih =>
    have hb := h b (by simp)
    rw [List.length_cons,List.range_succ_eq_map,List.map_cons,List.map_map,List.map_cons,
      ← ih (fun a ha => h a (by simp [ha])) (pre ++ b)]
    refine congrArg₂ _ ?_ (List.map_congr_left fun i _ => ?_)
    · rw [ntoh_slice,List.flatten_cons,slice_append_right _ (by omega),
        slice_append_left (by omega)]
      simp [hb,slice_whole]
    · simp only [Function.comp,List.flatten_cons,List.append_assoc,List.length_append,hb]
      congr 1
      omega

theorem length_flatten_blocks {blocks : List Bytes} (h : ∀ b ∈ blocks, b.length = 74) :
    blocks.flatten.length = 74 * blocks.length := by
  induction blocks with
  | nil => rfl
  | cons b blocks ih =>
    rw [List.flatten_cons,List.length_append,h b (by simp),ih fun a ha => h a (by simp [ha]),
      List.length_cons]
    omega

theorem handleDumpReply_eq {blocks : List Bytes} (h : ∀ b ∈ blocks, b.length = 74) {count : Bytes}
    (hcount : count.length = 4) :
    handleDumpReply ([0] ++ count ++ blocks.flatten) =
      if blocks.length = (be32 count 0).toNat then
        some (0,toInt (be32 count 0),
          if 0 < toInt (be32 count 0) then blocks.map fun b => ntohPacketinFilterEntry b 0 else [])
      else none := by
  have hlength : ([0] ++ count ++ blocks.flatten).length = 5 + 74 * blocks.length := by
    simp only [List.length_append,List.length_singleton,hcount,length_flatten_blocks h]
  have hbe : be32 ([0] ++ count ++ blocks.flatten) 1 = be32 count 0 := by
    rw [be32,be32,List.append_assoc,slice_append_right _ (by simp),slice_append_left (by simp [hcount])]
    rfl
  have hstatus : hostByte ([0] ++ count ++ blocks.flatten) 0 = 0 := rfl
  rw [handleDumpReply,hlength,hbe,hstatus,if_neg (by omega)]
  by_cases hlen : blocks.length = (be32 count 0).toNat
  · rw [if_neg (by omega),if_pos hlen]
    simp only [Option.some.injEq,Prod.mk.injEq,true_and]
    split
    · rename_i hpos
      have hn : (toInt (be32 count 0)).toNat = blocks.length := by
        rw [hlen,toInt]
        rw [toInt] at hpos
        have := (be32 count 0).toNat_lt
        split
        · simp
        · rename_i hlarge
          rw [if_neg hlarge] at hpos
          omega
      have hdecode := decode_blocks h ([0] ++ count)
      rw [hn,← hdecode]
      simp [hcount]
    · rfl
  · rw [if_pos (by omega),if_neg hlen]

end Decoding

section Reported

variable {heap : Nat → UInt8} {t : FilterTable} {criteria : Criteria} {count : Bytes}
  {entry : Triple → Bytes}

theorem toInt_eq {n : UInt32} {k : Nat} (h : k = n.toNat) :
    toInt n = (k : Int) ↔ k < 2147483648 := by
  have hlt := n.toNat_lt
  rw [toInt,← h]
  split
  · simp_all
  · rename_i hlarge
    refine iff_of_false (fun heq => ?_) hlarge
    omega

theorem reported_iff {told : Triple → Prop} (hcount : count.length = 4)
    (hlen : ∀ x, (entry x).length = 74)
    (hrequest : handleDumpFilterRequest heap t criteria =
      [0] ++ count ++ ((selectedTriples t criteria).map entry).flatten)
    (hname : ∀ x, (ntohPacketinFilterEntry (entry x) 0).serviceName = serviceNameField x.serviceName)
    (htold : ∀ x y, SameTriple (ntohPacketinFilterEntry (entry y) 0) x → told x)
    (hsame : ∀ x, x.serviceName.bytes.length ≤ 31 → told x →
      SameTriple (ntohPacketinFilterEntry (entry x) 0) x) :
    Reported heap t criteria ↔
      (∀ x ∈ selectedTriples t criteria, x.serviceName.bytes.length ≤ 31 ∧ told x) ∧
      (selectedTriples t criteria).length = (be32 count 0).toNat ∧
      (selectedTriples t criteria).length < 2147483648 := by
  have hblocks : ∀ b ∈ (selectedTriples t criteria).map entry, b.length = 74 := by
    intro b hb
    obtain ⟨x,_,rfl⟩ := List.mem_map.mp hb
    exact hlen x
  rw [Reported,hrequest,handleDumpReply_eq hblocks hcount,List.length_map]
  by_cases hn : (selectedTriples t criteria).length = (be32 count 0).toNat
  · simp only [if_pos hn,Option.some.injEq,Prod.mk.injEq,true_and,toInt_eq hn]
    constructor
    · rintro ⟨entries,stored,⟨hsmall,hentries⟩,hperm,hall⟩
      refine ⟨fun x hx => ?_,hn,hsmall⟩
      have hmem : x ∈ stored := hperm.mem_iff.mpr hx
      obtain ⟨e,he,hsame⟩ : ∃ e ∈ entries, SameTriple e x := by
        obtain ⟨i,hi,rfl⟩ := List.mem_iff_getElem.mp hmem
        have hlength := hall.length_eq
        exact ⟨entries[i],List.getElem_mem _,hall.get (by omega) hi⟩
      have hdecoded : e ∈ (selectedTriples t criteria).map fun y =>
          ntohPacketinFilterEntry (entry y) 0 := by
        rw [← hentries] at he
        split at he
        · rwa [List.map_map] at he
        · exact absurd he (by simp)
      obtain ⟨y,_,rfl⟩ := List.mem_map.mp hdecoded
      refine ⟨?_,htold x y hsame⟩
      rw [← hsame.1,hname]
      exact length_takeWhile_serviceNameField _
    · rintro ⟨hall,_,hsmall⟩
      refine ⟨(selectedTriples t criteria).map fun x => ntohPacketinFilterEntry (entry x) 0,
        selectedTriples t criteria,⟨hsmall,?_⟩,.refl _,?_⟩
      · rw [(toInt_eq hn).mpr hsmall]
        split
        · rw [List.map_map]
          rfl
        · rename_i hzero
          have hnil : selectedTriples t criteria = [] :=
            List.length_eq_zero_iff.mp (by omega)
          rw [hnil]
          rfl
      · rw [List.forall₂_map_left_iff]
        exact List.forall₂_same.mpr fun x hx => hsame x (hall x hx).1 (hall x hx).2
  · simp [hn]

theorem tableEntries_perm {s : OrderedMap (List CString)} (h : Represents t s) :
    (tableEntries t).Perm s := by
  have hexact : ((foreachHash t.exactTable).map Prod.snd).Perm s.exact := by
    refine (h.exact.map Prod.snd).trans (.of_eq ?_)
    rw [List.map_map]
    exact List.map_id _
  rw [tableEntries,h.wild]
  exact (hexact.append (ranked_perm _)).trans (List.filter_append_perm _ s)

theorem be32_toNet32 (n : UInt32) : be32 (toNet32 n) 0 = n := by
  rw [be32,slice_whole (length_toNet32 n),ofNat_beNat_toNet32]

def swapped (n : Nat) : Nat := (be32 (toHost32 (UInt32.ofNat n)) 0).toNat

theorem loose_triples (hloose : criteria.strict = false) :
    ((selectedTriples t criteria).map fun x => entryBytes x.mtch x.priority x.serviceName).flatten =
      bodyOf (selectedEntries t criteria) ∧
    (selectedTriples t criteria).length = total (selectedEntries t criteria) := by
  have hall : ∀ services, selectedServices criteria services = services := by
    intro services
    simp [selectedServices,hloose]
  constructor
  · simp only [selectedTriples,bodyOf,entriesOf,triples,hall,← List.flatMap_def,List.flatMap_assoc,
      List.flatMap_map]
  · simp [selectedTriples,total,sizes,triples,hall,List.length_flatMap]

theorem loose_reported_iff {s : OrderedMap (List CString)} (h : Represents t s) (hs : Served s)
    (hloose : criteria.strict = false) :
    Reported heap t criteria ↔
      (∀ x ∈ selectedTriples t criteria, x.serviceName.bytes.length ≤ 31) ∧
      (total (selectedEntries t criteria) ≤ 27 ∨
        swapped (27 + pastRoom 0 (sizes (selectedEntries t criteria))) =
          total (selectedEntries t criteria) ∧
        total (selectedEntries t criteria) < 2147483648) := by
  obtain ⟨hbody,hlength⟩ := loose_triples (t := t) hloose
  have hsome : ∀ e ∈ selectedEntries t criteria, e.data ≠ [] := by
    intro e he
    exact (hs e ((tableEntries_perm h).mem_iff.mp (List.mem_filter.mp he).1)).1
  have hrequest := loose_reply heap t hloose hsome
  rw [← hbody] at hrequest
  have hcount : (countField (selectedEntries t criteria)).length = 4 := by
    rw [countField]
    split <;> simp
  rw [@reported_iff heap t criteria _ _ (fun _ => True) hcount (fun x => length_entryBytes _ _ _) hrequest
    (fun x => by rw [ntoh_entryBytes]) (fun _ _ _ => trivial) (fun x hshort _ => ?_),hlength,countField]
  · simp only [and_true]
    refine and_congr_right fun _ => ?_
    by_cases hk : total (selectedEntries t criteria) ≤ 27
    · have hnat : (UInt32.ofNat (total (selectedEntries t criteria))).toNat =
          total (selectedEntries t criteria) := UInt32.toNat_ofNat_of_lt' (by
        rw [show UInt32.size = 4294967296 from rfl]
        omega)
      rw [if_pos hk,be32_toNet32,hnat]
      simp [hk]
      omega
    · rw [if_neg hk]
      simp only [hk,false_or,swapped,eq_comm]
  · rw [ntoh_entryBytes]
    exact ⟨serviceNameField_short hshort,rfl,rfl⟩

theorem strict_triples {s : OrderedMap (List CString)} (h : Represents t s)
    (hstrict : criteria.strict = true) :
    selectedTriples t criteria = ((s.find criteria.mtch criteria.priority).toList).flatMap fun e =>
      (answered criteria e.data).map fun name => ⟨e.mtch,e.priority,name⟩ := by
  have hperm := tableEntries_perm h
  have hone : AtMostOne (keyed criteria.mtch criteria.priority) s := atMostOne_keyed h.keys
  have hselected : selectedEntries t criteria =
      (tableEntries t).filter (keyed criteria.mtch criteria.priority) := by
    simp [selectedEntries,hstrict]
  have hnames : ∀ services, selectedServices criteria services = answered criteria services := by
    intro services
    simp [selectedServices,answered,hstrict]
  have htriples : triples criteria = fun e => (answered criteria e.data).map fun name =>
      ⟨e.mtch,e.priority,name⟩ := by
    funext e
    rw [triples,hnames]
  rw [selectedTriples,hselected,(hone.perm hperm.symm).filter_eq,← hone.find?_perm hperm.symm,
    htriples]
  rfl

theorem strict_reported_iff {s : OrderedMap (List CString)} (h : Represents t s) (hs : Served s)
    (hstrict : criteria.strict = true) :
    Reported heap t criteria ↔
      ∀ x ∈ selectedTriples t criteria, x.serviceName.bytes.length ≤ 31 ∧ Echoes criteria x := by
  have hlookup := h.lookupStrict criteria.mtch criteria.priority
  have hnodup : (lookupMatchStrictEntry t criteria.mtch criteria.priority).Nodup := by
    rw [hlookup]
    exact nodup_find hs _ _
  have hnames : answered criteria (lookupMatchStrictEntry t criteria.mtch criteria.priority) =
      (selectedTriples t criteria).map Triple.serviceName := by
    rw [strict_triples h hstrict,hlookup]
    cases s.find criteria.mtch criteria.priority with
    | none => rfl
    | some e =>
      rw [Option.toList_some,List.flatMap_singleton,List.map_map]
      exact (List.map_id _).symm
  have hrequest := strict_reply heap t hstrict hnodup
  have hsmall : (selectedTriples t criteria).length ≤ 1 := by
    have hlength := congrArg List.length hnames
    rw [List.length_map] at hlength
    rcases answered_nodup criteria hnodup with hnone | hone
    · rw [hnone] at hlength
      simp only [List.length_nil] at hlength
      omega
    · rw [hone] at hlength
      simp only [List.length_singleton] at hlength
      omega
  simp only [hnames,List.length_map,entriesOf,List.flatMap_map] at hrequest
  rw [List.flatMap_def] at hrequest
  have hnat : (UInt32.ofNat (selectedTriples t criteria).length).toNat =
      (selectedTriples t criteria).length := UInt32.toNat_ofNat_of_lt' (by
    rw [show UInt32.size = 4294967296 from rfl]
    omega)
  rw [@reported_iff heap t criteria _ _ (Echoes criteria) (length_toNet32 _) (fun x => length_entryBytes _ _ _) hrequest
    (fun x => by rw [ntoh_entryBytes]) (fun x y hsame => ?_) (fun x hshort htold => ?_),be32_toNet32,hnat]
  · exact and_iff_left ⟨rfl,by omega⟩
  · rw [ntoh_entryBytes] at hsame
    exact ⟨hsame.2.1.symm,hsame.2.2.symm⟩
  · rw [ntoh_entryBytes]
    exact ⟨serviceNameField_short hshort,htold.1.symm,htold.2.symm⟩

end Reported

theorem dump_reported_iff (heap : Nat → UInt8) (requests : List Request) (criteria : Criteria) :
    Reported heap (filterTable requests) criteria ↔
      (∀ x ∈ selectedTriples (filterTable requests) criteria, x.serviceName.bytes.length ≤ 31) ∧
      if criteria.strict = true then
        ∀ x ∈ selectedTriples (filterTable requests) criteria, Echoes criteria x
      else
        total (selectedEntries (filterTable requests) criteria) ≤ 27 ∨
        swapped (27 + pastRoom 0 (sizes (selectedEntries (filterTable requests) criteria))) =
          total (selectedEntries (filterTable requests) criteria) ∧
        total (selectedEntries (filterTable requests) criteria) < 2147483648 := by
  obtain ⟨s,h,hs⟩ := represents_filterTable requests
  by_cases hstrict : criteria.strict = true
  · rw [strict_reported_iff h hs hstrict,if_pos hstrict]
    exact ⟨fun hall => ⟨fun x hx => (hall x hx).1,fun x hx => (hall x hx).2⟩,
      fun hall x hx => ⟨hall.1 x hx,hall.2 x hx⟩⟩
  · rw [loose_reported_iff h hs (Bool.eq_false_iff.mpr hstrict),if_neg hstrict]

def crowdedTable : List Request :=
  (List.range 28).map fun i => .add (portMatch (UInt16.ofNat i)) 1 ⟨[120],by decide⟩

theorem crowded_dump_lost :
    total (selectedEntries (filterTable crowdedTable) ⟨anyPacket,0,⟨[],by decide⟩,false⟩) = 28 ∧
    ¬ Reported (fun _ => 0) (filterTable crowdedTable) ⟨anyPacket,0,⟨[],by decide⟩,false⟩ := by
  obtain ⟨s,h,hs⟩ := represents_filterTable crowdedTable
  have hsizes : sizes (selectedEntries (filterTable crowdedTable)
      ⟨anyPacket,0,⟨[],by decide⟩,false⟩) = List.replicate 28 1 := by
    decide +kernel
  have htotal : total (selectedEntries (filterTable crowdedTable)
      ⟨anyPacket,0,⟨[],by decide⟩,false⟩) = 28 := by rw [total,hsizes]; rfl
  refine ⟨htotal,?_⟩
  rw [loose_reported_iff h hs rfl,htotal,hsizes]
  rintro ⟨_,hfew | ⟨hswap,_⟩⟩
  · exact absurd hfew (by decide)
  · exact absurd hswap (by decide)

end Trema.PacketinFilter
