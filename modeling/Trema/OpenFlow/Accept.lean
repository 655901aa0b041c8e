import Trema.OpenFlow.Creation
import Trema.OpenFlow.Termination

namespace Trema.OpenFlow

open Library Layout

section Matches

theorem ofHost_toHost (mtch : OfpMatch) : OfpMatch.ofHost mtch.toHost = mtch := by
  obtain ⟨w,i,⟨s0,s1,s2,s3,s4,s5⟩,⟨d0,d1,d2,d3,d4,d5⟩,v,vp,p1,t,tos,pr,p2,ns,nd,ts,td⟩ := mtch
  simp (disch := simp) [OfpMatch.ofHost,OfpMatch.toHost,host32,host16,hostByte,Mac.ofBytes,
    slice_append_right,slice_append_left,slice_whole,Mac.toBytes,slice_cons,slice_head]

variable {fs : List Field} {x : Bytes} {off n : Nat}

theorem slice_twice (h : size fs ≤ x.length)
    (hf : fieldAt fs off = some (.swap n) ∨ fieldAt fs off = some (.copy n)) :
    slice (cells fs (cells fs x)) off n = slice x off n := by
  have hread : readEnd fs ≤ x.length := (readEnd_le_size fs).trans h
  have hagain : readEnd fs ≤ (cells fs x).length := by
    rw [length_cells hread]
    exact readEnd_le_size fs
  rcases hf with hf | hf
  · have h1 := slice_cells hf hread
    have h2 := slice_cells hf hagain
    simp only [Field.width,Field.image] at h1 h2
    rw [h2,h1,List.reverse_reverse]
  · have h1 := slice_cells hf hread
    have h2 := slice_cells hf hagain
    simp only [Field.width,Field.image] at h1 h2
    rw [h2,h1]

theorem slice_blanked (h : size fs ≤ x.length) (hf : fieldAt fs off = some (.zero n)) :
    slice (cells fs (cells fs x)) off n = List.replicate n 0 := by
  refine slice_cells hf ?_
  rw [length_cells ((readEnd_le_size fs).trans h)]
  exact readEnd_le_size fs

theorem mac_of_slice {a b : Bytes} {off : Nat} (h : slice a off 6 = slice b off 6) :
    Mac.ofBytes a off = Mac.ofBytes b off := by
  have hbyte : ∀ i, i + 1 ≤ 6 → hostByte a (off + i) = hostByte b (off + i) := by
    intro i hi
    rw [hostByte,hostByte,← slice_slice hi,h,slice_slice hi]
  simp only [Mac.ofBytes,hbyte 1 (by omega),hbyte 2 (by omega),hbyte 3 (by omega),
    hbyte 4 (by omega),hbyte 5 (by omega)]
  congr 1
  exact hbyte 0 (by omega)

theorem ofHost_twice (h : 40 ≤ x.length) :
    OfpMatch.ofHost (cells matchFields (cells matchFields x)) = (OfpMatch.ofHost x).unpadded := by
  have hs : size matchFields ≤ x.length := h
  have hmac : ∀ off, fieldAt matchFields off = some (.copy 6) →
      Mac.ofBytes (cells matchFields (cells matchFields x)) off = Mac.ofBytes x off :=
    fun off hf => mac_of_slice (slice_twice hs (.inr hf))
  simp only [OfpMatch.ofHost,OfpMatch.unpadded,host32,host16,hostByte,
    slice_twice hs (.inl (show fieldAt matchFields 0 = some (.swap 4) by decide)),
    slice_twice hs (.inl (show fieldAt matchFields 4 = some (.swap 2) by decide)),
    hmac 6 (by decide),hmac 12 (by decide),
    slice_twice hs (.inl (show fieldAt matchFields 18 = some (.swap 2) by decide)),
    slice_twice hs (.inr (show fieldAt matchFields 20 = some (.copy 1) by decide)),
    slice_blanked hs (show fieldAt matchFields 21 = some (.zero 1) by decide),
    slice_twice hs (.inl (show fieldAt matchFields 22 = some (.swap 2) by decide)),
    slice_twice hs (.inr (show fieldAt matchFields 24 = some (.copy 1) by decide)),
    slice_twice hs (.inr (show fieldAt matchFields 25 = some (.copy 1) by decide)),
    slice_blanked hs (show fieldAt matchFields 26 = some (.zero 2) by decide),
    slice_twice hs (.inl (show fieldAt matchFields 28 = some (.swap 4) by decide)),
    slice_twice hs (.inl (show fieldAt matchFields 32 = some (.swap 4) by decide)),
    slice_twice hs (.inl (show fieldAt matchFields 36 = some (.swap 2) by decide)),
    slice_twice hs (.inl (show fieldAt matchFields 38 = some (.swap 2) by decide))]
  rfl

theorem ofHost_netMatch (mtch : OfpMatch) (rest : Bytes) :
    OfpMatch.ofHost (cells matchFields (netMatch mtch ++ rest)) = mtch.unpadded := by
  rw [cells_append _ (by rw [length_netMatch]; decide),netMatch,ofHost_twice (by simp),ofHost_toHost]

end Matches

section Framing

variable {xid : UInt32} {type : OfpType} {body : Bytes}

theorem length_framed : (framed xid type body).length = 8 + body.length := by simp [framed]

theorem drop_framed (k : Nat) : (framed xid type body).drop (8 + k) = body.drop k := by
  rw [framed,← List.drop_drop,List.drop_left' length_header]

theorem headed_framed {lo hi : Nat} (hs : 8 + body.length ≤ 65535) (hlo : lo ≤ 8 + body.length)
    (hhi : 8 + body.length ≤ hi) : Headed (framed xid type body) type lo hi := by
  have hversion : hostByte (framed xid type body) 0 = ofpVersion := by
    simp [hostByte,framed,header,slice_head]
  refine ⟨by rw [length_framed]; omega,?_,?_,?_,by rw [length_framed]; exact hlo,
    by rw [length_framed]; exact hhi⟩
  · rw [hversion]
    cases type <;> decide
  · simp (disch := simp) [hostByte,framed,header,slice_head,slice_cons]
  · have hlen : be16 (framed xid type body) 2 = UInt16.ofNat (8 + body.length) := by
      simp (disch := simp) [be16,framed,header,slice_cons,slice_append_left,slice_whole]
    rw [hlen,length_framed,UInt16.toNat_ofNat_of_lt' (show 8 + body.length < 65536 by omega)]

theorem holds_framed : Holds (framed xid type body) 8 body := by
  have := holds_mid (header xid type (8 + body.length)) body []
  rwa [List.append_nil,length_header] at this

end Framing

section Blocks

variable {m : Bytes}

theorem actionCheck_twice {t : ActionType} {b : Bytes} (h : size (actionFields t) ≤ b.length) :
    actionCheck t (cells (actionFields t) (cells (actionFields t) b)) = actionCheck t b := by
  cases t with
  | output =>
    rw [actionCheck,host16,slice_twice h (.inl (by decide))]
    rfl
  | setVlanVid =>
    rw [actionCheck,host16,slice_twice h (.inl (by decide))]
    rfl
  | setVlanPcp =>
    rw [actionCheck,hostByte,slice_twice h (.inr (by decide))]
    rfl
  | setNwTos =>
    rw [actionCheck,hostByte,slice_twice h (.inr (by decide))]
    rfl
  | enqueue =>
    rw [actionCheck,host16,slice_twice h (.inl (by decide))]
    rfl
  | _ => rfl

theorem validateAction_converted {t : ActionType} {b : Bytes} {p : Nat}
    (hb : ActionBlock .host t b) (hcheck : actionCheck t b = .ok ())
    (hvendor : t = .vendor → b.length % 8 = 0) (hm : Holds m p (convertBlock .host b)) :
    validateAction m p = .ok () := by
  rw [convertBlock_eq hb] at hm
  have hlen := length_actionImage hb
  have hlarge := hb.length_ge
  have hfits := hb.fits
  have hin := hm.bound (by omega)
  have himage : ActionBlock .net t (actionImage t b) := hb.image
  have htype : be16 m (p + 0) = be16 (actionImage t b) 0 := hm.be16 (by omega)
  have hsize : be16 m (p + 2) = be16 (actionImage t b) 2 := hm.be16 (by omega)
  have hcode : be16 (actionImage t b) 0 = t.code := ActionType.code_of_ofCode himage.type
  have hlength : (be16 (actionImage t b) 2).toNat = b.length := himage.len.trans hlen
  rw [Nat.add_zero] at htype
  refine validateAction_eq_ok.mpr ⟨by omega,by rw [hsize,hlength]; exact hlarge,t,
    by rw [htype,hcode,ActionType.ofCode_code],?_⟩
  by_cases hv : t = .vendor
  · subst hv
    refine validateActionVendor_eq_ok.mpr ⟨by omega,by rw [htype,hcode],?_,?_⟩
    · rw [hsize,hlength]
      exact hlarge
    · rw [hsize,hlength]
      exact hvendor rfl
  · have hread := readEnd_le_size (actionFields t)
    refine (validateActionOf_eq_ok hv).mpr ⟨by omega,by rw [htype,hcode],?_,?_⟩
    · rw [hsize,hlength,hb.sized hv]
    · have hdrop : b.drop (size (actionFields t)) = [] := by
        rw [← hb.sized hv,List.drop_length]
      rw [hm.drop_eq,actionImage,hdrop,List.append_nil,
        cells_append _ (by rw [length_cells hb.readEnd_le]; exact hread),actionCheck_twice hfits]
      exact hcheck

theorem validateElements_yields {check : Bytes → Nat → Exec Unit} {head : Nat} {bs : List Bytes}
    (hm : Holds m head bs.flatten)
    (hall : ∀ b ∈ bs, 4 ≤ b.length ∧ (be16 b 2).toNat = b.length ∧
      ∀ p, Holds m p b → check m p = .ok ())
    (hlt : bs.flatten.length < 65536) :
    Yields (fun n => validateElements check n m head bs.flatten.length) (.ok ()) := by
  have hreach : ∀ (cs : List Bytes) (off : Nat), (∀ c ∈ cs, c ∈ bs) →
      Holds m (head + off) cs.flatten → off + cs.flatten.length = bs.flatten.length →
      Reach (fun offset => decide (offset < bs.flatten.length))
        (fun _ => elementStep check m head) off bs.flatten.length := by
    intro cs
    induction cs with
    | nil =>
      intro off _ _ htotal
      rw [List.flatten_nil,List.length_nil,Nat.add_zero] at htotal
      exact htotal ▸ .refl
    | cons c cs ih =>
      intro off hsub hc htotal
      rw [List.flatten_cons] at hc htotal
      rw [List.length_append] at htotal
      obtain ⟨hhead,hrest⟩ := Holds.append.mp hc
      obtain ⟨hfits,hlen,hcheck⟩ := hall c (hsub c (by simp))
      have hfield : be16 m (head + off + 2) = be16 c 2 := hhead.be16 (by omega)
      have hin := hhead.bound (by omega)
      refine .head ⟨by simp only [decide_eq_true_eq]; omega,by simp,0,?_⟩
        (ih (off + c.length) (fun d hd => hsub d (by simp [hd])) (by rwa [← Nat.add_assoc])
          (by omega))
      show elementStep check m head off = _
      rw [elementStep,hcheck _ hhead,ok_bind,net16_inside (by omega),ok_bind,hfield,hlen,
        Nat.mod_eq_of_lt (by omega)]
      rfl
  obtain ⟨_,n,hn⟩ := (whileLoop_yields_ok
    (fun offset => settled_const (elementStep check m head offset)) _ _).mpr
    ⟨hreach bs 0 (fun _ h => h) hm (by omega),by simp⟩
  refine ⟨by simp,n,?_⟩
  simp only [validateElements,hn,ok_bind]
  rfl

theorem validateActions_yields {actions : List Bytes} {head : Nat}
    (hall : ∀ b ∈ actions, AllowedAction b)
    (hm : Holds m head (concat (convertBlock .host) actions))
    (hlt : actions.flatten.length < 65536) :
    Yields (fun n => validateActions n m head actions.flatten.length) (.ok ()) := by
  have hlen : (actions.map (convertBlock .host)).flatten.length = actions.flatten.length :=
    length_convertBlocks fun b hb => ⟨(hall b hb).choose,(hall b hb).choose_spec.1⟩
  rw [← hlen]
  refine validateElements_yields hm ?_ (by omega)
  intro c hc
  obtain ⟨b,hb,rfl⟩ := List.mem_map.mp hc
  obtain ⟨t,hblock,hcheck,hvendor⟩ := hall b hb
  have hlarge := hblock.length_ge
  have hil := length_actionImage hblock
  refine ⟨?_,?_,fun p hp => validateAction_converted hblock hcheck hvendor hp⟩
  · rw [convertBlock_eq hblock]
    omega
  · rw [convertBlock_eq hblock]
    exact hblock.image.len

end Blocks

section Entries

variable {m : Bytes}

theorem be32_cells {fs : List Field} {src : Bytes} {off : Nat}
    (hf : fieldAt fs off = some (.swap 4)) (h : readEnd fs ≤ src.length) :
    be32 (cells fs src) off = host32 src off := by
  have hs := slice_cells hf h
  simp only [Field.width,Field.image] at hs
  rw [be32,hs,beNat,List.reverse_reverse,host32]

theorem validateEach_ok {fs : List Field} {check : Nat → Exec Unit} {structs : List (Struct fs)}
    {p : Nat} (hm : Holds m p (netStructs structs))
    (hall : ∀ s ∈ structs, ∀ q, Holds m q (cells fs s.bytes) → check q = .ok ()) :
    validateEach check (size fs) p structs.length = .ok () := by
  induction structs generalizing p with
  | nil => rfl
  | cons s structs ih =>
    rw [netStructs,concat_cons,Holds.append,length_struct] at hm
    rw [List.length_cons,validateEach,hall s (by simp) p hm.1,ok_bind]
    exact ih hm.2 fun t ht => hall t (by simp [ht])

theorem validatePhyPort_ok {port : PhyPort} (h : PhyPort.Allowed port) {p : Nat}
    (hm : Holds m p (cells phyPortFields port.bytes)) : validatePhyPort m p = .ok () := by
  have hs : size phyPortFields ≤ port.bytes.length := port.sized.ge
  have hlen := length_struct port
  have hsize : size phyPortFields = 48 := by decide
  have hconv : ntohPhyPort m p = .ok (cells phyPortFields (cells phyPortFields port.bytes)) :=
    hm.convert (by rw [hlen]; exact readEnd_le_size _) (by omega)
  have h32 : ∀ off, fieldAt phyPortFields off = some (.swap 4) →
      host32 (cells phyPortFields (cells phyPortFields port.bytes)) off = host32 port.bytes off :=
    fun off hf => by rw [host32,slice_twice hs (.inl hf),host32]
  have h16 : host16 (cells phyPortFields (cells phyPortFields port.bytes)) 0 =
      host16 port.bytes 0 := by rw [host16,slice_twice hs (.inl (by decide)),host16]
  simp only [validatePhyPort,hconv,ok_bind,h16,h.portNo,h32 24 (by decide),h32 28 (by decide),
    h32 32 (by decide),h32 36 (by decide),h32 40 (by decide),h32 44 (by decide),h.config,h.state,
    h.curr,h.advertised,h.supported,h.peer]
  rfl

theorem netFlow_eq (flow : FlowStats) : ∃ rest, netFlow flow =
    cells [.swap 2,.copy 1,.zero 1] flow.bytes ++ (cells matchFields (flow.bytes.drop 4) ++ rest) := by
  rw [netFlow,flowImage,flowStatsFields,cells_fields_append,cells_fields_append,List.append_assoc,
    List.append_assoc]
  exact ⟨_,rfl⟩

theorem flowStatsHead_ok {flow : FlowStats} (h : flow.Allowed) {p : Nat}
    (hm : Holds m p (netFlow flow)) : flowStatsHead m p = .ok flow.bytes.length := by
  have hfits := flow.block.fits
  have hlen : (netFlow flow).length = flow.bytes.length := length_flowImage flow.block
  obtain ⟨rest,hsplit⟩ := netFlow_eq flow
  have hhead : (cells [.swap 2,.copy 1,.zero 1] flow.bytes).length = 4 :=
    length_cells (show 3 ≤ flow.bytes.length by omega)
  have hdrop : (flow.bytes.drop 4).length = flow.bytes.length - 4 := List.length_drop
  have hmatch : Holds m (p + 4) (cells matchFields (flow.bytes.drop 4)) := by
    have hm' := hm
    rw [hsplit,Holds.append,Holds.append,hhead] at hm'
    exact hm'.2.1
  have hmlen : (cells matchFields (flow.bytes.drop 4)).length = 40 :=
    length_cells (show 40 ≤ (flow.bytes.drop 4).length by omega)
  have hconv : ntohMatch m (p + 4) =
      .ok (cells matchFields (cells matchFields (flow.bytes.drop 4))) :=
    hmatch.convert (by rw [hmlen]; decide) (by omega)
  have hfield : ∀ off, fieldAt flowStatsFields off = some (.swap 2) → off + 2 ≤ 88 →
      net16 m (p + off) = (.ok (host16 flow.bytes off) : Exec UInt16) := by
    intro off hf hoff
    have hin := hm.inside (show off + 2 ≤ (netFlow flow).length by omega) (by omega)
    rw [net16_inside hin,hm.be16 (by omega)]
    exact congrArg _ (u16_flowImage flow.block hf hoff)
  have hlength : (host16 flow.bytes 0).toNat = flow.bytes.length := flow.block.length
  have hzero := hfield 0 (by decide) (by omega)
  rw [Nat.add_zero] at hzero
  rw [flowStatsHead,hconv,ok_bind,ofHost_twice (by omega)]
  change (validateMatch (OfpMatch.ofHost (flow.bytes.drop 4)) >>= fun _ => _) = _
  rw [h.mtch,ok_bind,hzero,hfield 52 (by decide) (by omega),ok_bind,ok_bind,hlength]
  have hprio : onlyIf (exactWildcards (OfpMatch.ofHost (flow.bytes.drop 4)).unpadded)
      (rejectIf (host16 flow.bytes 52 < uint16Max) .invalidFlowPriority) = .ok () := by
    refine onlyIf_eq_ok.mpr fun hexact => rejectIf_eq_ok.mpr ?_
    rw [h.priority hexact]
    decide
  rw [hprio]
  rfl

theorem validateFlows_reach {flows : List FlowStats} (hall : ∀ flow ∈ flows, flow.Allowed) {p : Nat}
    (hm : Holds m p (concat netFlow flows)) (hlt : (concat netFlow flows).length < 65536) :
    Reach (fun s => decide (0 < s.1)) (fun n => flowStatsStep n m)
      ((concat netFlow flows).length,p) (0,p + (concat netFlow flows).length) := by
  induction flows generalizing p with
  | nil => exact .refl
  | cons flow flows ih =>
    rw [concat_cons,Holds.append] at hm
    rw [concat_cons,List.length_append] at hlt ⊢
    have hflow := hall flow (by simp)
    have hfits := flow.block.fits
    have hlen : (netFlow flow).length = flow.bytes.length := length_flowImage flow.block
    have hrest := ih (fun f hf => hall f (by simp [hf])) hm.2 (by omega)
    have hl : flow.actions.flatten.length = flow.bytes.length - 88 := by
      rw [← flow.block.tail,List.length_drop]
    have hactions : Holds m (p + 88) (concat (convertBlock .host) flow.actions) := by
      have hm' := hm.1
      rw [netFlow,flowImage,Holds.append,length_cells (by rw [readEnd_flowStatsFields]; exact hfits),
        size_flowStatsFields] at hm'
      exact hm'.2
    have hok := (yields_onlyIf_actions _ _ _ _).mpr
      (validateActions_yields hflow.actions hactions (by omega))
    obtain ⟨_,n,hn⟩ := hok
    have hsub : sub16 ((netFlow flow).length + (concat netFlow flows).length) flow.bytes.length =
        (concat netFlow flows).length := by
      rw [sub16_of_le (by omega) (by omega)]
      omega
    have hacts : sub16 flow.bytes.length 88 = flow.actions.flatten.length := by
      rw [sub16_of_le hfits (by omega),hl]
    have hstep : flowStatsStep n m ((netFlow flow).length + (concat netFlow flows).length,p) =
        .ok ((concat netFlow flows).length,p + (netFlow flow).length) := by
      simp only at hn
      rw [flowStatsStep,flowStatsHead_ok hflow hm.1,ok_bind]
      simp only [hacts,hsub,hn]
      rw [hlen]
      rfl
    rw [Nat.add_assoc] at hrest
    exact .head ⟨by simp only [decide_eq_true_eq]; omega,by simp,n,hstep⟩ hrest

theorem netQueue_block (queue : PacketQueue) : ∃ properties,
    QueueBlock .net (netQueue queue) properties ∧ properties.length = queue.properties.length := by
  refine ⟨_,queue.block.image (cleared_properties queue.properties),?_⟩
  rw [List.length_zipWith,List.length_map,Nat.min_self]

theorem length_ge_of_properties {order : Order} {e : Bytes} {properties : List Bytes}
    (h : QueueBlock order e properties) (hne : properties ≠ []) : 16 ≤ e.length := by
  obtain ⟨b,hb⟩ := List.exists_mem_of_ne_nil _ hne
  have h8 := (h.blocks b hb).length_ge
  have hle := List.Sublist.length_le (List.sublist_flatten_of_mem hb)
  rw [← h.tail,List.length_drop] at hle
  omega

theorem length_netQueue_ge {queue : PacketQueue} (hne : queue.properties ≠ []) :
    16 ≤ (netQueue queue).length := by
  obtain ⟨properties,hblock,hlen⟩ := netQueue_block queue
  refine length_ge_of_properties hblock fun hnil => hne ?_
  rw [hnil] at hlen
  exact List.length_eq_zero_iff.mp hlen.symm

theorem net16_netQueue {queue : PacketQueue} {p : Nat} (hm : Holds m p (netQueue queue)) :
    p + 8 ≤ m.length ∧ (be16 m (p + 4)).toNat = (netQueue queue).length := by
  obtain ⟨properties,hblock,_⟩ := netQueue_block queue
  have hfits := hblock.fits
  have hin := hm.bound (by omega)
  refine ⟨by omega,?_⟩
  rw [hm.be16 (by omega)]
  exact hblock.length

theorem countQueues_reach {queues : List PacketQueue} (hall : ∀ queue ∈ queues, queue.properties ≠ [])
    {p k : Nat} (hm : Holds m p (concat netQueue queues))
    (hlt : (concat netQueue queues).length < 65536) :
    Reach (fun s => decide (8 < s.remaining)) (fun _ => countQueue m)
      ⟨(concat netQueue queues).length,p,k⟩
      ⟨0,p + (concat netQueue queues).length,k + queues.length⟩ := by
  induction queues generalizing p k with
  | nil => exact .refl
  | cons queue queues ih =>
    rw [concat_cons,Holds.append] at hm
    rw [concat_cons,List.length_append] at hlt ⊢
    have hge := length_netQueue_ge (hall queue (by simp))
    obtain ⟨hin,hlen⟩ := net16_netQueue hm.1
    have hrest := @ih (fun q hq => hall q (by simp [hq])) _ (k + 1) hm.2 (by omega)
    have hsub : sub16 ((netQueue queue).length + (concat netQueue queues).length)
        (netQueue queue).length = (concat netQueue queues).length := by
      rw [sub16_of_le (by omega) (by omega)]
      omega
    have hstep : countQueue m ⟨(netQueue queue).length + (concat netQueue queues).length,p,k⟩ =
        .ok ⟨(concat netQueue queues).length,p + (netQueue queue).length,k + 1⟩ := by
      rw [countQueue,net16_inside (by simp only; omega),ok_bind]
      simp only [hlen,hsub]
      rfl
    rw [Nat.add_assoc,Nat.add_right_comm,Nat.add_assoc k] at hrest
    exact .head ⟨by simp only [decide_eq_true_eq]; omega,by simp,0,hstep⟩ hrest

theorem validatePacketQueue_yields {queue : PacketQueue} (hne : queue.properties ≠ []) {p : Nat}
    (hm : Holds m p (netQueue queue)) (hlt : (netQueue queue).length < 65536) :
    Yields (fun n => validatePacketQueue n m p) (.ok ()) := by
  have hge := length_netQueue_ge hne
  obtain ⟨hin,hlen⟩ := net16_netQueue hm
  obtain ⟨properties,hblock,_⟩ := netQueue_block queue
  have hprops : Holds m (p + 8) properties.flatten := by
    rw [← hblock.tail]
    exact hm.drop 8 (by omega)
  have htotal : properties.flatten.length = (netQueue queue).length - 8 := by
    rw [← hblock.tail,List.length_drop]
  have hsub : sub16 (netQueue queue).length 8 = properties.flatten.length := by
    rw [sub16_of_le (by omega) hlt,htotal]
  have haccept : ∀ b ∈ properties, 4 ≤ b.length ∧ (be16 b 2).toNat = b.length ∧
      ∀ q, Holds m q b → validateQueueProperty m q = .ok () := by
    intro b hb
    have hb' := hblock.blocks b hb
    have h8 := hb'.length_ge
    refine ⟨by omega,hb'.len,fun q hq => ?_⟩
    have hbound := hq.bound (by omega)
    have htype : be16 m (q + 0) = be16 b 0 := hq.be16 (by omega)
    have hsize : (be16 m (q + 2)).toNat = b.length := by
      rw [hq.be16 (by omega)]
      exact hb'.len
    rw [Nat.add_zero] at htype
    refine validateQueueProperty_eq_ok.mpr ⟨by omega,?_⟩
    rw [htype,hsize]
    exact hb'.sized
  obtain ⟨_,n,hn⟩ := validateElements_yields hprops haccept (by omega)
  refine ⟨by simp,n,?_⟩
  show validatePacketQueue n m p = .ok ()
  have hlong : rejectIf ((netQueue queue).length < 16) .tooShortQueueDescription = .ok () :=
    rejectIf_eq_ok.mpr (by omega)
  rw [validatePacketQueue,net16_inside (by omega),ok_bind,hlen,hsub,hlong,ok_bind]
  exact hn

theorem validatePacketQueues_yields {queues : List PacketQueue}
    (hall : ∀ queue ∈ queues, queue.properties ≠ []) {p : Nat}
    (hm : Holds m p (concat netQueue queues)) (hlt : (concat netQueue queues).length < 65536) :
    Yields (fun n => validatePacketQueues n m p queues.length) (.ok ()) := by
  induction queues generalizing p with
  | nil => exact ⟨by simp,0,rfl⟩
  | cons queue queues ih =>
    rw [concat_cons,Holds.append] at hm
    rw [concat_cons,List.length_append] at hlt
    obtain ⟨hin,hlen⟩ := net16_netQueue hm.1
    have hfirst := validatePacketQueue_yields (hall queue (by simp)) hm.1 (by omega)
    have hrest := ih (fun q hq => hall q (by simp [hq])) hm.2 (by omega)
    refine (yields_bind (settled_validatePacketQueue m p) (fun _ => settled_bind (settled_const _)
      (fun _ => settled_validatePacketQueues _ _ _)) _).mpr (.inl ⟨(),hfirst,?_⟩)
    simp only [net16_inside (show p + 4 + 2 ≤ m.length by omega),ok_bind,hlen]
    exact hrest

end Entries

end Trema.OpenFlow
