import Trema.OpenFlow.Create
import Trema.OpenFlow.Decode

namespace Trema.OpenFlow

open Library Layout

def header (transactionId : UInt32) (type : OfpType) (length : Nat) : Bytes :=
  [ofpVersion,type.code] ++ toNet16 (UInt16.ofNat length) ++ toNet32 transactionId

def draft (transactionId : UInt32) (type : OfpType) (length : Nat) (done : Bytes) : Bytes :=
  header transactionId type length ++ done ++ List.replicate (length - 8 - done.length) 0

def framed (transactionId : UInt32) (type : OfpType) (body : Bytes) : Bytes :=
  header transactionId type (8 + body.length) ++ body

section Drafts

variable {xid : UInt32} {type : OfpType} {length p : Nat} {done bs : Bytes}

@[simp] theorem length_header : (header xid type length).length = 8 := by simp [header]

theorem length_draft (h : 8 + done.length ≤ length) : (draft xid type length done).length = length := by
  simp [draft]
  omega

theorem draft_complete (h : length = 8 + done.length) :
    draft xid type length done = framed xid type done := by
  subst h
  simp [draft,framed]

theorem createHeader_eq (h : 8 ≤ length) :
    createHeader xid type length = .ok (draft xid type length []) := by
  rw [createHeader,abortIf,if_neg (by omega)]
  simp [draft,header,pure,Except.pure]

theorem store_draft (hp : p = 8 + done.length) (h : 8 + done.length + bs.length ≤ length) :
    store (draft xid type length done) p bs = (.ok (draft xid type length (done ++ bs)) : Exec Bytes) := by
  have hpre : (header xid type length ++ done).length = p := by simp [hp]
  have hleft : length - 8 - done.length - bs.length = length - 8 - (done ++ bs).length := by
    rw [List.length_append]
    omega
  rw [draft,← hpre,store_zeros _ _ _ (by omega),hleft,draft,List.append_assoc _ done bs]

theorem createFields_eq (h : 8 + bs.length ≤ length) :
    createFields xid type length bs = .ok (draft xid type length bs) := by
  rw [createFields,createHeader_eq (by omega),ok_bind,store_draft (by simp) (by simpa using h),
    List.nil_append]

theorem dataLength_eq (data : Option Bytes) (h : (data.getD []).length < 65536) :
    dataLength data = (data.getD []).length := by
  cases data with
  | none => rfl
  | some d => exact cast16_of_lt h

theorem copyData_draft {data : Option Bytes} (hp : p = 8 + done.length)
    (h : 8 + done.length + (data.getD []).length = length) (hlt : length < 65536) :
    copyData (draft xid type length done) p data = .ok (framed xid type (done ++ data.getD [])) := by
  have hd := dataLength_eq data (by omega)
  rw [copyData,hd]
  split
  · rw [load_ok (by omega),slice_whole rfl,ok_bind,store_draft hp (by omega),
      draft_complete (by simp; omega)]
  · have hnil : data.getD [] = [] := List.length_eq_zero_iff.mp (by omega)
    rw [hnil,List.append_nil,draft_complete (by rw [hnil] at h; simpa using h.symm)]
    rfl

end Drafts

section Loops

variable {xid : UInt32} {type : OfpType} {length p : Nat} {done : Bytes}

theorem htonActions_draft {actions : List Bytes} (h : ∀ b ∈ actions, IsAction .host b)
    (hp : p = 8 + done.length) (hroom : p + actions.flatten.length ≤ length) :
    htonActions (draft xid type length done) p actions =
      .ok (draft xid type length (done ++ concat (convertBlock .host) actions)) := by
  induction actions generalizing done p with
  | nil => simp [htonActions,pure,Except.pure]
  | cons b bs ih =>
    obtain ⟨t,hb⟩ := h b (by simp)
    have hlen := length_actionImage hb
    have hlarge := hb.length_ge
    rw [List.flatten_cons,List.length_append] at hroom
    have hread : Order.host.read16 b (0 + 2) = .ok (Order.host.u16 b 2) :=
      Order.read16_holds (holds_self b) (by omega)
    rw [Nat.zero_add] at hread
    simp only [htonActions,hread,ok_bind,htonAction,convertAction_holds hb (holds_self b)]
    rw [store_draft hp (by omega),ok_bind,hb.len,
      ih (fun c hc => h c (by simp [hc])) (by simp; omega) (by omega),concat_cons,
      convertBlock_eq hb,List.append_assoc]

theorem getActionsLength_eq {actions : OpenflowActions} (h : ∀ b ∈ actions.list, IsAction .host b)
    (hlt : actions.list.flatten.length < 65536) :
    getActionsLength actions = .ok actions.list.flatten.length := by
  have hfold : ∀ (bs : List Bytes) (total : Nat), (∀ b ∈ bs, IsAction .host b) →
      bs.foldlM addActionLength total = (.ok (total + bs.flatten.length) : Exec Nat) := by
    intro bs
    induction bs with
    | nil => exact fun _ _ => rfl
    | cons b bs ih =>
      intro total hbs
      obtain ⟨t,hb⟩ := hbs b (by simp)
      have hlarge := hb.length_ge
      have hread : ∀ i, i + 2 ≤ 8 → Order.host.read16 b i = .ok (Order.host.u16 b i) := by
        intro i hi
        have hi' : Order.host.read16 b (0 + i) = .ok (Order.host.u16 b i) :=
          Order.read16_holds (holds_self b) (by omega)
        rwa [Nat.zero_add] at hi'
      have hcode := ActionType.code_of_ofCode hb.type
      have hdefined : ¬ ¬ (t.code ≤ ActionType.enqueue.code ∨ t.code = ActionType.vendor.code) := by
        cases t <;> decide
      simp only [List.foldlM_cons,addActionLength,hread 0 (by omega),hread 2 (by omega),ok_bind,
        hcode,abortIf,if_neg hdefined,hb.len]
      show bs.foldlM addActionLength (total + b.length) = _
      rw [ih _ fun c hc => hbs c (by simp [hc]),List.flatten_cons,List.length_append,Nat.add_assoc]
  rw [getActionsLength,hfold _ _ h,Nat.zero_add,ok_bind,abortIf,if_neg (by omega)]
  rfl

def actionList (actions : Option OpenflowActions) : List Bytes :=
  (actions.map OpenflowActions.list).getD []

theorem optionalActionsLength_eq {actions : Option OpenflowActions}
    (h : ∀ b ∈ actionList actions, IsAction .host b)
    (hlt : (actionList actions).flatten.length < 65536) :
    optionalActionsLength actions = .ok (actionList actions).flatten.length := by
  cases actions with
  | none => rfl
  | some actions => exact getActionsLength_eq h hlt

theorem copyActions_draft {actions : Option OpenflowActions}
    (h : ∀ b ∈ actionList actions, IsAction .host b) (hp : p = 8 + done.length)
    (hroom : p + (actionList actions).flatten.length ≤ length) :
    copyActions (draft xid type length done) p (actionList actions).flatten.length actions =
      .ok (draft xid type length (done ++ concat (convertBlock .host) (actionList actions))) := by
  rw [copyActions]
  split
  · exact htonActions_draft h hp hroom
  · have hnil : actionList actions = [] := by
      by_contra hne
      obtain ⟨b,hb⟩ := List.exists_mem_of_ne_nil _ hne
      have hlarge : 8 ≤ b.length := (h b hb).choose_spec.length_ge
      have := List.Sublist.length_le (List.sublist_flatten_of_mem hb)
      omega
    rw [hnil,concat_nil,List.append_nil]
    rfl

theorem htonStructs_draft {fs : List Field} {structs : List (Struct fs)} (hp : p = 8 + done.length)
    (hroom : p + size fs * structs.length ≤ length) :
    htonStructs (draft xid type length done) p structs =
      .ok (draft xid type length (done ++ concat (fun s => cells fs s.bytes) structs)) := by
  induction structs generalizing done p with
  | nil => simp [htonStructs,pure,Except.pure]
  | cons s structs ih =>
    rw [List.length_cons,Nat.mul_succ] at hroom
    have hread : readEnd fs ≤ s.bytes.length := by
      rw [s.sized]
      exact readEnd_le_size fs
    have hlen := length_cells hread
    simp only [htonStructs]
    rw [convert_inside (by omega),ok_bind,List.drop_zero,store_draft hp (by omega),ok_bind,
      ih (by simp; omega) (by omega),concat_cons,List.append_assoc]

theorem settled_htonFlows (buffer : Bytes) (q : Nat) (flows : List FlowStats) :
    Settled (fun n => htonFlows n buffer q flows) := by
  induction flows generalizing buffer q with
  | nil => exact settled_const _
  | cons flow flows ih =>
    exact settled_bind (settled_convertFlowStats _ _ _ _ _) (fun _ =>
      settled_bind (settled_const _) (fun _ => ih _ _))

def netFlow (flow : FlowStats) : Bytes := flowImage .host flow.bytes flow.actions

theorem htonFlows_draft {flows : List FlowStats} (hp : p = 8 + done.length)
    (hroom : p + (concat FlowStats.bytes flows).length ≤ length) :
    Yields (fun n => htonFlows n (draft xid type length done) p flows)
      (.ok (draft xid type length (done ++ concat netFlow flows))) := by
  induction flows generalizing done p with
  | nil => exact ⟨by simp,0,by simp [htonFlows,pure,Except.pure]⟩
  | cons flow flows ih =>
    rw [concat_cons,List.length_append] at hroom
    have hfits := flow.block.fits
    have hlen := length_flowImage flow.block
    obtain ⟨out,hout,hy⟩ := convertFlowStats_yields flow.block (holds_self flow.bytes)
      (q := p) (show p + flow.bytes.length ≤ (draft xid type length done).length by
        rw [length_draft (by omega)]
        omega)
    rw [store_draft hp (by omega)] at hout
    injection hout with hout
    rw [← hout] at hy
    have hread : Order.host.read16 flow.bytes (0 + 0) = .ok (Order.host.u16 flow.bytes 0) :=
      Order.read16_holds (holds_self flow.bytes) (by omega)
    have hrest := @ih (p + flow.bytes.length) (done ++ netFlow flow)
      (by simp only [netFlow,List.length_append]; omega) (by omega)
    rw [concat_cons,← List.append_assoc]
    refine (yields_bind (settled_convertFlowStats _ _ _ _ _) (fun _ =>
      settled_bind (settled_const _) (fun _ => settled_htonFlows _ _ _)) _).mpr
        (.inl ⟨_,hy,?_⟩)
    simp only [hread,ok_bind,flow.block.length]
    exact hrest

theorem settled_htonQueues (buffer : Bytes) (q : Nat) (queues : List PacketQueue) :
    Settled (fun n => htonQueues n buffer q queues) := by
  induction queues generalizing buffer q with
  | nil => exact settled_const _
  | cons queue queues ih =>
    exact settled_bind (settled_convertPacketQueue _ _ _ _ _) (fun _ =>
      settled_bind (settled_const _) (fun _ => ih _ _))

def netQueue (queue : PacketQueue) : Bytes :=
  queueImage .host queue.bytes queue.properties (queue.properties.map fun b => xcalloc b.length)

theorem holds_draft {n : Nat} (hp : 8 + done.length ≤ p) (h : p + n ≤ length) :
    Holds (draft xid type length done) p (xcalloc n) := by
  have hpre : (header xid type length ++ done).length = 8 + done.length := by simp
  rw [Holds,draft,slice_append_right _ (by omega),hpre]
  simp only [slice,xcalloc,List.drop_replicate,List.take_replicate,List.length_replicate]
  congr 1
  omega

theorem htonQueues_draft {queues : List PacketQueue} (hp : p = 8 + done.length)
    (hroom : p + (concat PacketQueue.bytes queues).length ≤ length) :
    Yields (fun n => htonQueues n (draft xid type length done) p queues)
      (.ok (draft xid type length (done ++ concat netQueue queues))) := by
  induction queues generalizing done p with
  | nil => exact ⟨by simp,0,by simp [htonQueues,pure,Except.pure]⟩
  | cons queue queues ih =>
    rw [concat_cons,List.length_append] at hroom
    have hfits := queue.block.fits
    have hl : queue.properties.flatten.length = queue.bytes.length - 8 := by
      rw [← queue.block.tail,List.length_drop]
    have hlen := length_queueImage queue.block (cleared_properties queue.properties)
    obtain ⟨out,hout,hy⟩ := convertPacketQueue_yields queue.block
      (cleared_properties queue.properties) (holds_self queue.bytes)
      (show Holds (draft xid type length done) (p + 8)
          (queue.properties.map fun b => xcalloc b.length).flatten by
        rw [flatten_cleared]
        exact holds_draft (by omega) (by omega))
      (by rw [length_draft (by omega)]; omega)
    rw [store_draft hp (by omega)] at hout
    injection hout with hout
    rw [← hout] at hy
    have hread : Order.host.read16 queue.bytes (0 + 4) = .ok (Order.host.u16 queue.bytes 4) :=
      Order.read16_holds (holds_self queue.bytes) (by omega)
    rw [Nat.zero_add] at hread
    have hrest := @ih (p + queue.bytes.length) (done ++ netQueue queue)
      (by simp only [netQueue,List.length_append]; omega) (by omega)
    rw [concat_cons,← List.append_assoc]
    refine (yields_bind (settled_convertPacketQueue _ _ _ _ _) (fun _ =>
      settled_bind (settled_const _) (fun _ => settled_htonQueues _ _ _)) _).mpr
        (.inl ⟨_,hy,?_⟩)
    simp only [hread,ok_bind,queue.block.length]
    exact hrest

theorem addLengths_eq {off : Nat} {entries : List Bytes} (total : Nat)
    (h : ∀ e ∈ entries, off + 2 ≤ e.length ∧ (Order.host.u16 e off).toNat = e.length)
    (hlt : total + entries.flatten.length < 65536) :
    entries.foldlM (addLength off) total = (.ok (total + entries.flatten.length) : Exec Nat) := by
  induction entries generalizing total with
  | nil => rfl
  | cons e entries ih =>
    obtain ⟨hfits,hlen⟩ := h e (by simp)
    rw [List.flatten_cons,List.length_append] at hlt ⊢
    have hread : Order.host.read16 e (0 + off) = .ok (Order.host.u16 e off) :=
      Order.read16_holds (holds_self e) hfits
    rw [Nat.zero_add] at hread
    simp only [List.foldlM_cons,addLength,hread,ok_bind,hlen,cast16_of_lt
      (show total + e.length < 65536 by omega)]
    show entries.foldlM (addLength off) (total + e.length) = _
    rw [ih _ (fun c hc => h c (by simp [hc])) (by omega),Nat.add_assoc]

end Loops

end Trema.OpenFlow
