import Trema.Tremashark.PcapQueue
import Trema.Tremashark.QueueSort

namespace Trema.Tremashark

open Library Capture

-- A record under the handle of its buffer.
abbrev Record := Nat × Bytes

def bytesOf (records : List Record) : Bytes := (records.map Prod.snd).flatten

def WholeRecords (s : Capture) (enqueued : List Record) : Prop :=
  ∃ written : List Record, (written.map Prod.fst).Nodup ∧ written ⊆ enqueued ∧
    s.output <+: bytesOf written

-- write_to_file has moved the data pointer of the first packet.
def HalfWritten (s : Capture) : Prop :=
  ∃ handle p, s.packetQueue.peek = .ok (some handle) ∧ s.packet handle = .ok p ∧ 0 < p.data

-- No other packet goes before what is left of a half-written one, read as a header.
def Undisturbed (s : Capture) (stray : Nat → Bytes) : Prop :=
  ∀ handle live p, Represents s.packetQueue (handle :: live) → s.packet handle = .ok p → 0 < p.data →
    ∀ other ∈ live, s.compareTimestamp stray handle other = false

-- The sort leaves the first packet first.
def Resumes (s : Capture) (stray : Nat → Bytes) : Prop :=
  ∃ q, s.packetQueue.sortQueue (s.compareTimestamp stray) = .ok q ∧ q.peek = s.packetQueue.peek

inductive Reached (trustRemoteClocks : Bool) : Capture → List Record → Prop
  | start : Reached trustRemoteClocks .start []
  | enqueued {s s' : Capture} {records : List Record} {m : DumpMessage} {now : Int32 × Int32}
      (reached : Reached trustRemoteClocks s records)
      (run : s.dumpMessage trustRemoteClocks m now = .ok (true,s')) :
      Reached trustRemoteClocks s'
        (records ++ [(s.packets.length,(m.packet trustRemoteClocks now).bytes)])
  | discarded {s s' : Capture} {records : List Record} {m : DumpMessage} {now : Int32 × Int32}
      (reached : Reached trustRemoteClocks s records)
      (run : s.dumpMessage trustRemoteClocks m now = .ok (false,s')) :
      Reached trustRemoteClocks s' records
  | tick {s s' : Capture} {records : List Record} {now : Timeval} {stray : Nat → Bytes}
      {results : List WriteResult} (reached : Reached trustRemoteClocks s records)
      (undisturbed : Undisturbed s stray) (run : s.writePcapPacket now stray results = .ok s') :
      Reached trustRemoteClocks s' records

section Order

instance : IsStrictWeakOrder Timeval fun x y => later x y = true where
  irrefl x := by simp [later]
  trans x y z := by
    simp only [later,decide_eq_true_eq]
    omega
  incomp_trans x y z := by
    simp only [later,decide_eq_true_eq]
    omega

instance (s : Capture) (stray : Nat → Bytes) :
    IsStrictWeakOrder Nat fun x y => s.compareTimestamp stray x y = true :=
  inferInstanceAs (IsStrictWeakOrder Nat (Order.Preimage (s.tsOf stray) fun x y => later x y = true))

instance (s : Capture) (stray : Nat → Bytes) :
    IsStrictWeakOrder Record fun x y => s.compareTimestamp stray x.1 y.1 = true :=
  inferInstanceAs (IsStrictWeakOrder Record
    (Order.Preimage Prod.fst fun x y => s.compareTimestamp stray x y = true))

end Order

-- `k` bytes of the record have been written.
def Held (packets : List (Option PcapPacket)) (r : Record) (k : Nat) : Prop :=
  packets[r.1]?.join = some ⟨r.2,k,r.2.length - k⟩ ∧ k < r.2.length

def Written (s : Capture) (done : List Record) : List Record → Prop
  | [] => s.output = bytesOf done
  | front :: rest => (∃ k, Held s.packets front k ∧ s.output = bytesOf done ++ front.2.take k) ∧
      ∀ r ∈ rest, Held s.packets r 0

structure Inv (s : Capture) (enqueued done live : List Record) : Prop where
  queue : Represents s.packetQueue (live.map Prod.fst)
  known : done ++ live ⊆ enqueued
  fresh : ∀ r ∈ done ++ live, r.1 < s.packets.length
  distinct : ((done ++ live).map Prod.fst).Nodup
  full : live.length ≤ 65536
  written : Written s done live

section Records

variable {s : Capture} {enqueued done live rest : List Record} {front r : Record} {k : Nat}

theorem bytesOf_concat (done : List Record) (r : Record) : bytesOf (done ++ [r]) = bytesOf done ++ r.2 := by
  simp [bytesOf]

theorem inv_start : Inv .start [] [] [] :=
  ⟨represents_createQueue,List.Subset.refl _,by simp,List.nodup_nil,Nat.zero_le _,rfl⟩

theorem Inv.wholeRecords (h : Inv s enqueued done live) : WholeRecords s enqueued := by
  have hwritten := h.written
  cases live with
  | nil =>
    rw [Written] at hwritten
    refine ⟨done,?_,?_,hwritten ▸ List.prefix_refl _⟩
    · simpa using h.distinct
    · simpa using h.known
  | cons front rest =>
    obtain ⟨⟨k,_,hout⟩,_⟩ := hwritten
    have hsub : (done ++ [front]).Sublist (done ++ front :: rest) :=
      List.Sublist.append_left (List.singleton_sublist.mpr List.mem_cons_self) done
    refine ⟨done ++ [front],h.distinct.sublist (hsub.map _),fun r hr => h.known (hsub.subset hr),?_⟩
    rw [hout,bytesOf_concat]
    exact (List.prefix_append_right_inj _).mpr (List.take_prefix k front.2)

theorem Held.append (h : Held s.packets r k) (new : Option PcapPacket) :
    Held (s.packets ++ [new]) r k := ⟨(join_append new (lt_of_join h.1)).trans h.1,h.2⟩

theorem Held.set (h : Held s.packets r k) {handle : Nat} (hne : r.1 ≠ handle) (new : Option PcapPacket) :
    Held (s.packets.set handle new) r k := ⟨(join_set_ne hne new).trans h.1,h.2⟩

theorem Held.packet (h : Held s.packets r k) : s.packet r.1 = .ok ⟨r.2,k,r.2.length - k⟩ := by
  rw [Capture.packet,h.1]
  rfl

theorem Written.frame {s' : Capture} (h : Written s done live)
    (hheld : ∀ r k, Held s.packets r k → Held s'.packets r k) (hout : s'.output = s.output) :
    Written s' done live := by
  cases live with
  | nil => exact hout.trans h
  | cons front rest =>
    obtain ⟨⟨k,hfront,hbytes⟩,hrest⟩ := h
    exact ⟨⟨k,hheld front k hfront,hout.trans hbytes⟩,fun r hr => hheld r 0 (hrest r hr)⟩

theorem Written.concat (h : Written s done live) (hr : Held s.packets r 0) :
    Written s done (live ++ [r]) := by
  cases live with
  | nil =>
    refine ⟨⟨0,hr,?_⟩,by simp⟩
    rw [List.take_zero,List.append_nil]
    exact h
  | cons front rest =>
    refine ⟨h.1,fun x hx => ?_⟩
    rcases List.mem_append.mp hx with hx | hx
    · exact h.2 x hx
    · exact List.mem_singleton.mp hx ▸ hr

theorem Inv.limit (h : Inv s enqueued done live) :
    queueLimit ≤ s.packetQueue.length ↔ 65536 ≤ live.length := by
  have hlt : live.length < 2 ^ 31 := h.full.trans_lt (by decide)
  rw [Int32.le_iff_toInt_le,h.queue.length,List.length_map,Int32.toInt_ofNat_of_lt hlt]
  exact Int.ofNat_le (m := 65536)

theorem length_packet_pos (m : DumpMessage) (trustRemoteClocks : Bool) (now : Int32 × Int32) :
    0 < (m.packet trustRemoteClocks now).bytes.length := by
  simp only [DumpMessage.packet,createPcapPacket,DumpMessage.pcapHeader,List.length_append,toHost32,
    length_leBytes]
  omega

theorem Inv.dumpMessage (h : Inv s enqueued done live) (trustRemoteClocks : Bool) (m : DumpMessage)
    (now : Int32 × Int32) : ∃ s',
    (s.dumpMessage trustRemoteClocks m now = .ok (false,s') ∧ Inv s' enqueued done live) ∨
    (s.dumpMessage trustRemoteClocks m now = .ok (true,s') ∧
      Inv s' (enqueued ++ [(s.packets.length,(m.packet trustRemoteClocks now).bytes)]) done
        (live ++ [(s.packets.length,(m.packet trustRemoteClocks now).bytes)])) := by
  by_cases hfull : queueLimit ≤ s.packetQueue.length
  · refine ⟨{ s with packets := s.packets ++ [none], lost := s.lost + 1, total := s.total + 1 },.inl ⟨?_,?_⟩⟩
    · rw [Capture.dumpMessage,enqueuePcapPacket,if_pos hfull]
      rfl
    · refine ⟨h.queue,h.known,fun r hr => ?_,h.distinct,h.full,
        h.written.frame (fun r k hr => hr.append none) rfl⟩
      rw [List.length_append]
      exact Nat.lt_succ_of_lt (h.fresh r hr)
  · have hpos := length_packet_pos m trustRemoteClocks now
    generalize hp : m.packet trustRemoteClocks now = p at hpos
    have hwhole : p = ⟨p.bytes,0,p.bytes.length⟩ := by
      rw [← hp]
      rfl
    have hlast := join_append_last (l := s.packets) (some p)
    have hlength : 0 < lengthOf (s.packets ++ [some p]) s.packets.length := by
      rw [lengthOf,hlast,hwhole]
      exact hpos
    obtain ⟨q,hrun,hq⟩ := h.queue.enqueue _ hlength
    refine ⟨{ s with packetQueue := q, packets := s.packets ++ [some p], total := s.total + 1 },.inr ⟨?_,?_⟩⟩
    · rw [Capture.dumpMessage,hp,enqueuePcapPacket,if_neg hfull]
      simp only [hrun,ok_bind]
      rfl
    · have hjoin : done ++ (live ++ [(s.packets.length,p.bytes)]) =
          (done ++ live) ++ [(s.packets.length,p.bytes)] := (List.append_assoc _ _ _).symm
      have hnew : Held (s.packets ++ [some p]) (s.packets.length,p.bytes) 0 :=
        ⟨hlast.trans (congrArg some hwhole),hpos⟩
      refine ⟨?_,?_,?_,?_,?_,?_⟩
      · rw [List.map_append]
        exact hq
      · rw [hjoin]
        exact List.append_subset.mpr ⟨List.Subset.trans h.known (List.subset_append_left _ _),
          List.subset_append_right _ _⟩
      · rw [hjoin]
        intro r hr
        rw [List.length_append]
        rcases List.mem_append.mp hr with hr | hr
        · exact Nat.lt_succ_of_lt (h.fresh r hr)
        · rw [List.mem_singleton.mp hr]
          exact Nat.lt_succ_self _
      · rw [hjoin,List.map_append]
        refine h.distinct.append (List.nodup_singleton _) ?_
        intro a ha hlen
        obtain ⟨r,hr,rfl⟩ := List.mem_map.mp ha
        exact Nat.ne_of_lt (h.fresh r hr) (List.mem_singleton.mp hlen)
      · have hroom : ¬ 65536 ≤ live.length := fun hle => hfull (h.limit.mpr hle)
        rw [List.length_append]
        exact Nat.succ_le_of_lt (Nat.not_le.mp hroom)
      · refine Written.concat ?_ hnew
        exact h.written.frame (fun r k hr => hr.append (some p)) rfl

theorem writeToFile_spec (h : Held s.packets r k) (result : WriteResult) :
    s.writeToFile r.1 result = .ok (.success,{ s with output := s.output ++ r.2.drop k }) ∨
    ∃ status n, status ≠ .success ∧ k + n < r.2.length ∧
      s.writeToFile r.1 result = .ok (status,{ s with
        output := s.output ++ slice r.2 k n,
        packets := s.packets.set r.1 (some ⟨r.2,k + n,r.2.length - (k + n)⟩) }) := by
  have hleft : r.2.length - k ≠ 0 := Nat.sub_ne_zero_of_lt h.2
  have hstill : ({ s with
      output := s.output ++ slice r.2 k 0,
      packets := s.packets.set r.1 (some ⟨r.2,k + 0,r.2.length - (k + 0)⟩) } : Capture) = s := by
    rw [slice,List.take_zero,List.append_nil,Nat.add_zero,set_of_join h.1]
  cases result with
  | again =>
    refine .inr ⟨.busy,0,by simp,h.2,?_⟩
    rw [hstill,writeToFile,h.packet,ok_bind,if_neg hleft]
    rfl
  | failed =>
    refine .inr ⟨.error,0,by simp,h.2,?_⟩
    rw [hstill,writeToFile,h.packet,ok_bind,if_neg hleft]
    rfl
  | wrote n =>
    have hle : min n (min (r.2.length - k) maxRwCount) ≤ r.2.length - k :=
      (Nat.min_le_right _ _).trans (Nat.min_le_left _ _)
    rw [writeToFile,h.packet,ok_bind,if_neg hleft]
    simp only
    generalize min n (min (r.2.length - k) maxRwCount) = ret at hle
    have hin : k + ret ≤ r.2.length := by omega
    rw [load_ok hin,ok_bind]
    by_cases hall : ret = r.2.length - k
    · refine .inl ?_
      rw [if_neg (not_not.mpr hall),slice,List.take_of_length_le (by simp [hall])]
      rfl
    · refine .inr ⟨.busy,ret,by simp,by omega,?_⟩
      rw [if_pos hall,Nat.sub_sub]
      rfl

theorem Inv.apart (h : Inv s enqueued done (front :: rest)) : ∀ r ∈ rest, r.1 ≠ front.1 := by
  have hdistinct := h.distinct
  rw [List.map_append,List.map_cons,List.nodup_append,List.nodup_cons] at hdistinct
  intro r hr heq
  apply hdistinct.2.1.1
  rw [← heq]
  exact List.mem_map_of_mem hr

theorem Inv.finish (h : Inv s enqueued done (front :: rest)) {q : Queue Nat}
    (hq : Represents q (rest.map Prod.fst)) {output : Bytes} (hout : output = bytesOf done ++ front.2) :
    Inv { s with packetQueue := q, packets := s.packets.set front.1 none, output := output } enqueued
      (done ++ [front]) rest := by
  have hjoin : (done ++ [front]) ++ rest = done ++ front :: rest := by simp
  have hkept : ∀ r ∈ rest, Held (s.packets.set front.1 none) r 0 :=
    fun r hr => (h.written.2 r hr).set (h.apart r hr) none
  rw [← bytesOf_concat] at hout
  refine ⟨hq,hjoin ▸ h.known,fun r hr => ?_,hjoin ▸ h.distinct,Nat.le_of_succ_le h.full,?_⟩
  · rw [List.length_set]
    exact h.fresh r (hjoin ▸ hr)
  · cases rest with
    | nil => exact hout
    | cons r rest =>
      refine ⟨⟨0,hkept r List.mem_cons_self,?_⟩,fun x hx => hkept x (List.mem_cons_of_mem r hx)⟩
      rw [List.take_zero,List.append_nil]
      exact hout

theorem Inv.advance (h : Inv s enqueued done (front :: rest)) (hfront : Held s.packets front k)
    (hout : s.output = bytesOf done ++ front.2.take k) {n : Nat} (hn : k + n < front.2.length) :
    Inv { s with
      output := s.output ++ slice front.2 k n,
      packets := s.packets.set front.1 (some ⟨front.2,k + n,front.2.length - (k + n)⟩) }
      enqueued done (front :: rest) := by
  refine ⟨h.queue,h.known,fun r hr => ?_,h.distinct,h.full,⟨k + n,⟨?_,hn⟩,?_⟩,fun r hr => ?_⟩
  · rw [List.length_set]
    exact h.fresh r hr
  · exact join_set_self (lt_of_join hfront.1) _
  · rw [hout,List.append_assoc,List.take_add]
    rfl
  · exact (h.written.2 r hr).set (h.apart r hr) _

theorem flush_spec (threshold : Timeval) (stray : Nat → Bytes) {fuel : Nat} (results : List WriteResult)
    (h : Inv s enqueued done live) (hfuel : live.length < fuel) :
    ∃ s' done' live', flush threshold stray fuel results s = .ok s' ∧ Inv s' enqueued done' live' := by
  induction fuel generalizing s done live results with
  | zero => exact absurd hfuel (Nat.not_lt_zero _)
  | succ fuel ih =>
    cases live with
    | nil =>
      refine ⟨s,done,[],?_,h⟩
      rw [flush,h.queue.peek]
      rfl
    | cons front rest =>
      obtain ⟨⟨k,hfront,hout⟩,hrest⟩ := h.written
      rw [flush,h.queue.peek]
      simp only [List.map_cons,List.head?_cons,ok_bind,hfront.packet]
      split
      · exact ⟨s,done,front :: rest,rfl,h⟩
      · rcases writeToFile_spec hfront (results.headD .again) with hrun | ⟨status,n,hstatus,hn,hrun⟩
        · obtain ⟨q,hdequeue,hq⟩ := h.queue.dequeue
          simp only [hrun,ok_bind,hdequeue,List.map_cons,List.head?_cons,Option.elim_some]
          refine ih results.tail (h.finish hq ?_) (Nat.lt_of_succ_lt_succ hfuel)
          rw [hout,List.append_assoc,List.take_append_drop]
        · refine ⟨_,done,front :: rest,?_,h.advance hfront hout hn⟩
          simp only [hrun,ok_bind]
          cases status with
          | success => exact absurd rfl hstatus
          | busy => rfl
          | error => rfl

theorem Inv.reorder (h : Inv s enqueued done live) {live' : List Record} {q : Queue Nat}
    (hperm : live'.Perm live) (hq : Represents q (live'.map Prod.fst))
    (hfirst : ∀ front rest k, live = front :: rest → Held s.packets front k → 0 < k →
      live'.head? = some front) :
    Inv { s with packetQueue := q } enqueued done live' := by
  have hall : (done ++ live').Perm (done ++ live) := hperm.append_left done
  refine ⟨hq,fun r hr => h.known (hall.mem_iff.mp hr),fun r hr => h.fresh r (hall.mem_iff.mp hr),
    (hall.map Prod.fst).nodup_iff.mpr h.distinct,hperm.length_eq ▸ h.full,?_⟩
  have hwritten := h.written
  cases live with
  | nil =>
    obtain rfl := hperm.eq_nil
    exact hwritten
  | cons front rest =>
    obtain ⟨⟨k,hheld,hout⟩,hrest⟩ := hwritten
    cases live' with
    | nil => exact absurd hperm.nil_eq (List.cons_ne_nil _ _).symm
    | cons front' rest' =>
      rcases Nat.eq_zero_or_pos k with rfl | hk
      · have hzero : ∀ r ∈ front' :: rest', Held s.packets r 0 := by
          intro r hr
          rcases List.mem_cons.mp (hperm.mem_iff.mp hr) with rfl | hr
          · exact hheld
          · exact hrest r hr
        rw [List.take_zero] at hout
        refine ⟨⟨0,hzero front' List.mem_cons_self,?_⟩,fun r hr => hzero r (List.mem_cons_of_mem _ hr)⟩
        rw [List.take_zero]
        exact hout
      · obtain rfl : front' = front := Option.some.inj (hfirst front rest k rfl hheld hk)
        exact ⟨⟨k,hheld,hout⟩,fun r hr => hrest r ((List.perm_cons _).mp hperm |>.mem_iff.mp hr)⟩

theorem Inv.sorts (h : Inv s enqueued done live) (stray : Nat → Bytes) :
    ∃ q live', s.packetQueue.sortQueue (s.compareTimestamp stray) = .ok q ∧
      Represents q (live'.map Prod.fst) ∧
      StableSort (fun x y => s.compareTimestamp stray x.1 y.1) live live' := by
  have hlt : (live.map Prod.fst).length < 2 ^ 31 := by
    rw [List.length_map]
    exact h.full.trans_lt (by decide)
  obtain ⟨q,hrun,hq,_⟩ := h.queue.sort hlt (s.compareTimestamp stray)
  rw [← map_insertAll] at hq
  exact ⟨q,_,hrun,hq,insertAll_stableSort _ live⟩

theorem Inv.writePcapPacket (h : Inv s enqueued done live) {stray : Nat → Bytes}
    (hu : Undisturbed s stray) (now : Timeval) (results : List WriteResult) :
    ∃ s' done' live', s.writePcapPacket now stray results = .ok s' ∧ Inv s' enqueued done' live' := by
  obtain ⟨q,live',hrun,hq,hsorted⟩ := h.sorts stray
  have hinv := h.reorder hsorted.perm hq fun front rest k hlive hheld hk => by
    subst hlive
    refine hsorted.head_iff.mpr fun r hr => ?_
    rcases List.mem_cons.mp hr with rfl | hr
    · exact after_irrefl (fun x y : Record => s.compareTimestamp stray x.1 y.1) r
    · exact hu front.1 (rest.map Prod.fst) _ h.queue hheld.packet hk r.1 (List.mem_map_of_mem hr)
  have hlt := hq.length_lt
  rw [List.length_map] at hlt
  obtain ⟨s',done',live'',hflush,hinv'⟩ :=
    flush_spec (timersub now flushDelay) stray results hinv (Nat.lt_succ_of_lt hlt)
  refine ⟨s',done',live'',?_,hinv'⟩
  rw [Capture.writePcapPacket,hrun]
  exact hflush

theorem Inv.resumes_iff (h : Inv s enqueued done live) (hhalf : HalfWritten s) (stray : Nat → Bytes) :
    Resumes s stray ↔ Undisturbed s stray := by
  obtain ⟨handle,p,hpeek,hp,hpos⟩ := hhalf
  have hfirst := hpeek.symm.trans h.queue.peek
  injection hfirst with hfirst
  cases live with
  | nil => simp at hfirst
  | cons front rest =>
    obtain rfl : handle = front.1 := Option.some.inj hfirst
    obtain ⟨q,live',hrun,hq,hsorted⟩ := h.sorts stray
    constructor
    · rintro ⟨q',hrun',hpeek'⟩ handle' others p' hothers _ _ other hother
      rw [hrun] at hrun'
      injection hrun' with hq'
      subst hq'
      have hsame := hothers.unique h.queue
      rw [List.map_cons,List.cons.injEq] at hsame
      obtain ⟨rfl,rfl⟩ := hsame
      obtain ⟨r,hr,rfl⟩ := List.mem_map.mp hother
      have hhead : live'.head? = some front := by
        have hfst := hq.peek.symm.trans (hpeek'.trans hpeek)
        injection hfst with hfst
        rw [List.head?_map,Option.map_eq_some_iff] at hfst
        obtain ⟨r',hr',hsame⟩ := hfst
        have hmem : r' ∈ front :: rest := hsorted.perm.mem_iff.mp (List.mem_of_head? hr')
        have hnodup := h.distinct
        rw [List.map_append] at hnodup
        rw [hr',List.inj_on_of_nodup_map hnodup.of_append_right hmem List.mem_cons_self hsame]
      exact hsorted.head_iff.mp hhead r (List.mem_cons_of_mem _ hr)
    · intro hu
      refine ⟨q,hrun,?_⟩
      have hhead := hsorted.head_iff.mpr fun r hr => by
        rcases List.mem_cons.mp hr with rfl | hr
        · exact after_irrefl (fun x y : Record => s.compareTimestamp stray x.1 y.1) r
        · exact hu front.1 (rest.map Prod.fst) p h.queue hp hpos r.1 (List.mem_map_of_mem hr)
      rw [hpeek,hq.peek,List.head?_map,hhead]
      rfl

end Records

theorem Reached.inv {trustRemoteClocks : Bool} {s : Capture} {enqueued : List Record}
    (h : Reached trustRemoteClocks s enqueued) : ∃ done live, Inv s enqueued done live := by
  induction h with
  | start => exact ⟨[],[],inv_start⟩
  | @enqueued s s' records m now _ run ih =>
    obtain ⟨done,live,hinv⟩ := ih
    obtain ⟨s₁,⟨hrun,hnext⟩ | ⟨hrun,hnext⟩⟩ := hinv.dumpMessage trustRemoteClocks m now
    · rw [hrun] at run
      simp at run
    · rw [hrun] at run
      injection run with run
      injection run with _ run
      exact ⟨_,_,run ▸ hnext⟩
  | @discarded s s' records m now _ run ih =>
    obtain ⟨done,live,hinv⟩ := ih
    obtain ⟨s₁,⟨hrun,hnext⟩ | ⟨hrun,hnext⟩⟩ := hinv.dumpMessage trustRemoteClocks m now
    · rw [hrun] at run
      injection run with run
      injection run with _ run
      exact ⟨_,_,run ▸ hnext⟩
    · rw [hrun] at run
      simp at run
  | @tick s s' records now stray results _ undisturbed run ih =>
    obtain ⟨done,live,hinv⟩ := ih
    obtain ⟨s₁,done',live',hrun,hnext⟩ := hinv.writePcapPacket undisturbed now results
    rw [hrun] at run
    injection run with run
    exact ⟨done',live',run ▸ hnext⟩

theorem output_whole_records {trustRemoteClocks : Bool} {s : Capture} {enqueued : List Record}
    (h : Reached trustRemoteClocks s enqueued) : WholeRecords s enqueued ∧
    (∀ m now, ∃ accepted s', s.dumpMessage trustRemoteClocks m now = .ok (accepted,s')) ∧
    ∀ stray, (HalfWritten s → (Resumes s stray ↔ Undisturbed s stray)) ∧
      (Undisturbed s stray → ∀ now results, ∃ s', s.writePcapPacket now stray results = .ok s') := by
  obtain ⟨done,live,hinv⟩ := h.inv
  refine ⟨hinv.wholeRecords,fun m now => ?_,fun stray => ⟨fun hhalf => hinv.resumes_iff hhalf stray,
    fun hu now results => ?_⟩⟩
  · obtain ⟨s',⟨hrun,_⟩ | ⟨hrun,_⟩⟩ := hinv.dumpMessage trustRemoteClocks m now
    · exact ⟨false,s',hrun⟩
    · exact ⟨true,s',hrun⟩
  · obtain ⟨s',_,_,hrun,_⟩ := hinv.writePcapPacket hu now results
    exact ⟨s',hrun⟩

def firstDump : DumpMessage := ⟨1,0x513DAD7F,0,[97,0],[],[],by decide,by decide,by decide⟩

def secondDump : DumpMessage := ⟨1,0x513DAD80,0,[97,0],[],[],by decide,by decide,by decide⟩

def firstRecord : Bytes := (firstDump.packet true (0,0)).bytes

def secondRecord : Bytes := (secondDump.packet true (0,0)).bytes

def tornRun : Exec Capture := do
  let (_,s) ← Capture.start.dumpMessage true firstDump (0,0)
  let s ← s.writePcapPacket ⟨0x513DADFF,0⟩ (fun _ => []) [.wrote 18]
  let (_,s) ← s.dumpMessage true secondDump (0,0)
  s.writePcapPacket ⟨0x513DADFF,0⟩ (fun _ => []) [.wrote 100]

-- What is left of the first record reads as a time stamp of 0x7FAD3D51 seconds.
theorem record_torn : ∃ s, tornRun = .ok s ∧ s.output = firstRecord.take 18 ++ secondRecord ∧
    ¬ WholeRecords s [(0,firstRecord),(1,secondRecord)] := by
  have hout : tornRun.toOption.map Capture.output = some (firstRecord.take 18 ++ secondRecord) := by
    decide +kernel
  cases hrun : tornRun with
  | error e =>
    rw [hrun] at hout
    simp [Except.toOption] at hout
  | ok s =>
    rw [hrun] at hout
    have hbytes : s.output = firstRecord.take 18 ++ secondRecord := Option.some.inj hout
    refine ⟨s,rfl,hbytes,?_⟩
    rintro ⟨written,_,hsub,rest,hfront⟩
    rw [hbytes] at hfront
    cases written with
    | nil => exact absurd (List.append_eq_nil_iff.mp hfront).1 (by decide +kernel)
    | cons r written =>
      have hlong : 19 ≤ (firstRecord.take 18 ++ secondRecord).length := by decide +kernel
      have hstart := congrArg (List.take 19) hfront
      rw [List.take_append_of_le_length hlong,bytesOf,List.map_cons,List.flatten_cons] at hstart
      have hr : r = (0,firstRecord) ∨ r = (1,secondRecord) := by
        simpa using hsub List.mem_cons_self
      rcases hr with rfl | rfl
      · have hfirst : 19 ≤ firstRecord.length := by decide +kernel
        rw [List.take_append_of_le_length hfirst] at hstart
        exact absurd hstart (by decide +kernel)
      · have hsecond : 19 ≤ secondRecord.length := by decide +kernel
        rw [List.take_append_of_le_length hsecond] at hstart
        exact absurd hstart (by decide +kernel)

def firstWaiting : Capture :=
  ⟨⟨[some ⟨none,some 1⟩,some ⟨some 0,none⟩],0,0,1,1⟩,[some (firstDump.packet true (0,0))],[],0,1⟩

def firstHalf : Capture :=
  ⟨⟨[some ⟨none,some 1⟩,some ⟨some 0,none⟩],0,0,1,1⟩,[some ⟨firstRecord,18,18⟩],firstRecord.take 18,0,1⟩

theorem reached_firstHalf : Reached true firstHalf [(0,firstRecord)] := by
  have hdumped : Reached true firstWaiting [(0,firstRecord)] :=
    @Reached.enqueued true _ _ _ firstDump (0,0) .start rfl
  refine @Reached.tick true _ _ _ ⟨0x513DADFF,0⟩ (fun _ => []) [.wrote 18] hdumped ?_ rfl
  intro handle live p _ hp hpos
  cases handle with
  | zero =>
    injection hp with hp
    rw [← hp] at hpos
    exact absurd hpos (by decide +kernel)
  | succ handle => simp [Capture.packet,firstWaiting,dereference] at hp

theorem output_whole_records_half : WholeRecords firstHalf [(0,firstRecord)] :=
  (output_whole_records reached_firstHalf).1

end Trema.Tremashark
