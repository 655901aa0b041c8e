import Trema.OpenFlow.Blocks

namespace Trema.OpenFlow

open Library Layout

-- The length by which the loops go on: ntoh reads it in the converted entry, hton in the source.
def stepLength (order : Order) (src : Bytes) (p : Nat) (dst : Bytes) (q : Nat) : Exec UInt16 :=
  match order with
  | .net => Order.host.read16 dst (q + 2)
  | .host => Order.host.read16 src (p + 2)

def convertActionTo (order : Order) (src : Bytes) (p : Nat) (dst : Bytes) (q : Nat) : Exec Bytes := do
  let type ← order.read16 src p
  match ActionType.ofCode type with
  | none => .error .aborted
  | some .vendor => do
    let head ← convert (actionFields .vendor) src p
    let dst ← store dst q head
    let len ← stepLength order src p dst q
    let body ← load src (p + 8) (subSize len.toNat 8)
    store dst (q + 8) body
  | some t => do
    let cells ← convert (actionFields t) src p
    store dst q cells

def actionStepAt (order : Order) (fs : Bytes) (s : Conversion) : Exec Conversion := do
  let out ← convertActionTo order fs s.src s.out s.dst
  let len ← stepLength order fs s.src out s.dst
  pure ⟨sub16 s.remaining len.toNat,s.src + len.toNat,s.dst + len.toNat,out⟩

-- dst is q and src is p in one memory; `fs` is the copy of the source.
def convertFlowStatsAt (order : Order) (fuel : Nat) (m : Bytes) (q p : Nat) : Exec Bytes := do
  let length ← order.read16 m p
  let fs ← load m p length.toNat
  let head ← convert flowStatsFields fs 0
  let m ← store m q head
  let length ← order.read16 fs 0
  let last ← whileLoop (fun s => decide (8 ≤ s.remaining)) (actionStepAt order fs) fuel
    ⟨sub16 length.toNat 88,88,q + 88,m⟩
  pure last.out

def propertyStepAt (order : Order) (pq : Bytes) (s : Conversion) : Exec Conversion := do
  let out ← convertQueueProperty order pq s.src s.out s.dst
  let len ← stepLength order pq s.src out s.dst
  pure ⟨sub16 s.remaining len.toNat,s.src + len.toNat,s.dst + len.toNat,out⟩

-- ntoh_packet_queue has dst->len here, hton_packet_queue src->len, after dst->len has been set.
def propertiesLength (order : Order) (m : Bytes) (q p : Nat) : Exec UInt16 :=
  match order with
  | .net => Order.host.read16 m (q + 4)
  | .host => Order.host.read16 m (p + 4)

def convertPacketQueueAt (order : Order) (fuel : Nat) (m : Bytes) (q p : Nat) : Exec Bytes := do
  let len ← order.read16 m (p + 4)
  abortIf (len = 0)
  let pq ← load m p len.toNat
  let head ← convert packetQueueFields pq 0
  let m ← store m q head
  let length ← propertiesLength order m q p
  let last ← whileLoop (fun s => decide (8 ≤ s.remaining)) (propertyStepAt order pq) fuel
    ⟨sub16 length.toNat 8,8,q + 8,m⟩
  pure last.out

section Steps

variable {order : Order} {t : ActionType} {b img src dst : Bytes} {p q : Nat}

theorem stepLength_holds (hsrc : Holds src p b) (hdst : Holds dst q img) (hb : 4 ≤ b.length)
    (himg : 4 ≤ img.length) (hsame : order.flip.u16 img 2 = order.u16 b 2) :
    stepLength order src p dst q = .ok (order.u16 b 2) := by
  cases order with
  | net => exact (Order.read16_holds hdst himg).trans (congrArg _ hsame)
  | host => exact Order.read16_holds hsrc hb

theorem convertActionTo_holds (h : ActionBlock order t b) (hsrc : Holds src p b)
    (hroom : q + b.length ≤ dst.length) :
    ∃ out, store dst q (actionImage t b) = (.ok out : Exec Bytes) ∧
      convertActionTo order src p dst q = .ok out := by
  have h8 := h.length_ge
  have hlen := length_actionImage h
  have htype : order.read16 src p = .ok (order.u16 b 0) :=
    Order.read16_holds (i := 0) hsrc (by omega)
  have hcells : convert (actionFields t) src p = (.ok (cells (actionFields t) b) : Exec Bytes) :=
    hsrc.convert h.readEnd_le (by omega)
  by_cases hv : t = .vendor
  · subst hv
    have hclen : (cells (actionFields .vendor) b).length = 8 := length_cells h.readEnd_le
    obtain ⟨mid,hmid⟩ : ∃ mid, store dst q (cells (actionFields .vendor) b) = (.ok mid : Exec Bytes) :=
      exists_store (by omega)
    have hmidlen := length_of_store hmid
    have hstep : stepLength order src p mid q = .ok (order.u16 b 2) :=
      stepLength_holds hsrc (holds_of_store hmid) (by omega) (by omega)
        (Order.u16_cells order (by decide) h.readEnd_le)
    have hbody : load src (p + 8) (b.length - 8) = (.ok (b.drop 8) : Exec Bytes) := by
      have hin := hsrc.bound (by omega)
      rw [load_ok (by omega),hsrc.slice_eq (by omega),slice,List.take_of_length_le (by simp)]
    have hdrop : (b.drop 8).length = b.length - 8 := List.length_drop
    obtain ⟨out,hout⟩ : ∃ out, store mid (q + 8) (b.drop 8) = (.ok out : Exec Bytes) :=
      exists_store (by omega)
    refine ⟨out,store_then_store hmid (by rw [hclen]; exact hout),?_⟩
    simp only [convertActionTo,htype,ok_bind,h.type,hcells,hmid,hstep,h.len,subSize_of_le h8,hbody,hout]
  · have hdrop : b.drop (size (actionFields t)) = [] := by
      rw [← h.sized hv,List.drop_length]
    have himage : actionImage t b = cells (actionFields t) b := by
      rw [actionImage,hdrop,List.append_nil]
    obtain ⟨out,hout⟩ : ∃ out, store dst q (actionImage t b) = (.ok out : Exec Bytes) :=
      exists_store (by omega)
    refine ⟨out,hout,?_⟩
    rw [himage] at hout
    simp only [convertActionTo,htype,ok_bind,h.type,hcells,hout]

theorem converts_actions_at (order : Order) (fs : Bytes) :
    Converts (fun s => decide (8 ≤ s.remaining)) (fun _ => actionStepAt order fs) fs id
      (fun b _ => convertBlock order b) (IsAction order) where
  enters s h := by simpa using h
  large b := by
    rintro ⟨_,h⟩
    exact h.length_ge
  keeps b _ h _ := h.convert.2
  steps := by
    rintro b old s ⟨t,h⟩ hsrc _ _ hroom
    simp only [id_eq] at hsrc hroom ⊢
    have hlen := length_actionImage h
    have hlarge := h.length_ge
    obtain ⟨out,hout,hrun⟩ := convertActionTo_holds h hsrc hroom
    have hstep := stepLength_holds hsrc (holds_of_store hout) (by omega) (by omega)
      (u16_actionImage h (actionFields_head t).2 (by omega))
    refine ⟨out,by rw [convertBlock_eq h]; exact hout,by simp,0,?_⟩
    simp only [actionStepAt,hrun,ok_bind,hstep,h.len]
    rfl

theorem converts_properties_at (order : Order) (pq : Bytes) :
    Converts (fun s => decide (8 ≤ s.remaining)) (fun _ => propertyStepAt order pq) pq id
      (propertyImage order) (PropertyBlock order) where
  enters s h := by simpa using h
  large b h := h.length_ge
  keeps b old h := length_propertyImage h
  steps := by
    intro b old s h hsrc hdst hold hroom
    simp only [id_eq] at hsrc hold hroom ⊢
    have hb := h.length_ge
    have hlen := length_propertyImage h hold
    obtain ⟨out,hout,hconv⟩ := convertQueueProperty_holds h hsrc hdst hold hroom
    have hstep := stepLength_holds hsrc (holds_of_store hout) (by omega) (by omega)
      (u16_propertyImage h (by decide) (by omega))
    refine ⟨out,hout,by simp,0,?_⟩
    simp only [propertyStepAt,hconv,ok_bind,hstep,h.len]
    rfl

end Steps

section Entries

variable {order : Order} {e m : Bytes} {p q : Nat}

theorem convertFlowStatsAt_yields {actions : List Bytes} (h : FlowBlock order e actions)
    (hsrc : Holds m p e) (hroom : q + e.length ≤ m.length) :
    ∃ out, store m q (flowImage order e actions) = (.ok out : Exec Bytes) ∧
      Yields (fun n => convertFlowStatsAt order n m q p) (.ok out) := by
  have hfits := h.fits
  have hread : order.read16 m p = .ok (order.u16 e 0) :=
    Order.read16_holds (i := 0) hsrc (by omega)
  have hcopy : order.read16 e 0 = .ok (order.u16 e 0) :=
    Order.read16_holds (i := 0) (holds_self e) (by omega)
  have hload : load m p e.length = (.ok e : Exec Bytes) := by
    rw [load_ok (hsrc.bound (by omega)),hsrc]
  obtain ⟨hcells,hclen⟩ := h.head
  obtain ⟨mid,hmid⟩ : ∃ mid, store m q (cells flowStatsFields e) = (.ok mid : Exec Bytes) :=
    exists_store (by omega)
  obtain ⟨out,hout,_,n,hn⟩ := h.loop (converts_actions_at order e) hroom hmid
  refine ⟨out,hout,by simp,n,?_⟩
  simp only [convertFlowStatsAt,hread,ok_bind,h.length,hload,hcells,hmid,hcopy,hn]
  rfl

-- What the converter takes for the length of the entry: in place, hton finds it swapped already.
def foundLength (order : Order) (q p : Nat) (e : Bytes) : UInt16 :=
  if order = .host ∧ q = p then be16 e 4 else order.u16 e 4

-- One storage for both entries, or two that do not overlap.
def Placed (q p n : Nat) : Prop := q = p ∨ p + n ≤ q ∨ q + n ≤ p

theorem propertiesLength_eq (order : Order) {mid : Bytes} (hfits : 8 ≤ e.length) (hsrc : Holds m p e)
    (hplaced : Placed q p e.length)
    (hmid : store m q (cells packetQueueFields e) = (.ok mid : Exec Bytes)) :
    propertiesLength order mid q p = .ok (foundLength order q p e) := by
  have hclen := length_queueHead hfits
  have hhead : Order.host.read16 mid (q + 4) = .ok (be16 e 4) := by
    refine (Order.read16_holds (holds_of_store hmid) (by omega)).trans (congrArg _ ?_)
    exact Order.u16_cells .net (by decide) (show 6 ≤ e.length by omega)
  cases order with
  | net => exact hhead
  | host =>
    rw [foundLength]
    rcases hplaced with rfl | hapart
    · rw [if_pos ⟨rfl,rfl⟩]
      exact hhead
    · have hne : ¬ (Order.host = .host ∧ q = p) := by
        rintro ⟨_,rfl⟩
        omega
      rw [if_neg hne]
      exact Order.read16_holds (hsrc.frame hmid (by omega)) (by omega)

theorem convertPacketQueueAt_yields {properties olds : List Bytes} (h : QueueBlock order e properties)
    (holds : List.Forall₂ (fun b old => old.length = b.length) properties olds)
    (hsrc : Holds m p e) (hdst : Holds m (q + 8) olds.flatten) (hroom : q + e.length ≤ m.length)
    (hplaced : Placed q p e.length) (hkept : foundLength order q p e = order.u16 e 4) :
    ∃ out, store m q (queueImage order e properties olds) = (.ok out : Exec Bytes) ∧
      Yields (fun n => convertPacketQueueAt order n m q p) (.ok out) := by
  have hfits := h.fits
  have hread : order.read16 m (p + 4) = .ok (order.u16 e 4) := Order.read16_holds hsrc (by omega)
  have hload : load m p e.length = (.ok e : Exec Bytes) := by
    rw [load_ok (hsrc.bound (by omega)),hsrc]
  obtain ⟨mid,hmid⟩ : ∃ mid, store m q (cells packetQueueFields e) = (.ok mid : Exec Bytes) :=
    exists_store (by rw [length_queueHead hfits]; omega)
  have hlength := propertiesLength_eq order hfits hsrc hplaced hmid
  obtain ⟨out,hout,_,n,hn⟩ := h.loop holds (converts_properties_at order e) hdst hroom hmid
  refine ⟨out,hout,by simp,n,?_⟩
  simp only [convertPacketQueueAt,hread,ok_bind,abortIf,h.len_ne_zero,if_false,h.length,hload,h.head,
    hmid,hlength,hkept,hn]
  rfl

theorem settled_convertPacketQueueAt (order : Order) (m : Bytes) (q p : Nat) :
    Settled (fun n => convertPacketQueueAt order n m q p) :=
  settled_bind (settled_const _) (fun _ => settled_bind (settled_const _) (fun _ =>
    settled_bind (settled_const _) (fun pq => settled_bind (settled_const _) (fun _ =>
      settled_bind (settled_const _) (fun _ => settled_bind (settled_const _) (fun _ =>
        settled_bind (settled_whileLoop (fun s => settled_const (propertyStepAt order pq s)) _)
          (fun _ => settled_const _)))))))

end Entries

end Trema.OpenFlow
