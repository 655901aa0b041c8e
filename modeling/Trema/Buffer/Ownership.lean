import Trema.Buffer.PrivateBuffer

namespace Trema.Buffer

open Library
open Utility (xmalloc xmalloc_ok xmalloc_aborted ptrdiffMax sizeMax)

-- A buffer holds its bytes behind the head room of a block that is its own.
inductive Owns (heap : Heap) : PrivateBuffer → Bytes → Prop
  | empty : Owns heap ⟨0,0,none,0⟩ []
  | block {top data length : Nat} {block : Bytes} (held : heap.block top = some block)
      (pos : 0 < block.length) (limit : block.length ≤ ptrdiffMax)
      (fits : data + length ≤ block.length) :
      Owns heap ⟨data,length,some top,block.length⟩ (slice block data length)

def Apart (p q : PrivateBuffer) : Prop := ∀ c, p.top = some c → q.top ≠ some c

-- What an operation on one buffer leaves to all the others.
def Spares (heap : Heap) (pbuf : PrivateBuffer) (heap' : Heap) (pbuf' : PrivateBuffer) : Prop :=
  ∀ c bytes, heap.block c = some bytes → pbuf.top ≠ some c →
    heap'.block c = some bytes ∧ pbuf'.top ≠ some c

section Basics

variable {heap heap' : Heap} {pbuf pbuf' other : PrivateBuffer} {bytes : Bytes} {length : Nat}

theorem sizeT_eq {n : Nat} (h : n ≤ sizeMax) : sizeT n = n := Nat.mod_eq_of_lt (Nat.lt_succ_of_le h)

theorem abortIf_false {bad : Prop} [Decidable bad] (h : ¬ bad) : abortIf bad = .ok () := if_neg h

theorem Owns.length_eq (h : Owns heap pbuf bytes) : bytes.length = pbuf.length := by
  cases h with
  | empty => rfl
  | block held pos limit fits => exact length_slice fits

theorem Owns.room (h : Owns heap pbuf bytes) : frontLengthOf pbuf + pbuf.length ≤ pbuf.realLength := by
  cases h with
  | empty => exact Nat.le_refl _
  | block held pos limit fits => exact fits

theorem Owns.limit (h : Owns heap pbuf bytes) : pbuf.realLength ≤ ptrdiffMax := by
  cases h with
  | empty => exact Nat.zero_le _
  | block held pos limit fits => exact limit

theorem Owns.live (h : Owns heap pbuf bytes) {c : Nat} (hc : pbuf.top = some c) :
    ∃ block, heap.block c = some block := by
  cases h with
  | empty => simp at hc
  | block held pos limit fits =>
    injection hc with hc
    exact ⟨_,hc ▸ held⟩

theorem Owns.top_isSome (h : Owns heap pbuf bytes) (hreal : 0 < pbuf.realLength) :
    ∃ top, pbuf.top = some top := by
  cases h with
  | empty => exact absurd hreal (Nat.lt_irrefl 0)
  | @block top _ _ _ _ _ _ _ => exact ⟨top,rfl⟩

theorem Owns.load (h : Owns heap pbuf bytes) {top n : Nat} (htop : pbuf.top = some top)
    (hn : n ≤ bytes.length) : (heap.load ⟨top,pbuf.data⟩ n : Exec Bytes) = .ok (bytes.take n) := by
  cases h with
  | empty => simp at htop
  | @block _ data len block held pos limit fits =>
    injection htop with htop
    subst htop
    rw [length_slice fits] at hn
    rw [Heap.load_block held,load_ok (show data + n ≤ block.length by omega),slice,slice,List.take_take,
      Nat.min_eq_left hn]

theorem Apart.symm (h : Apart pbuf other) : Apart other pbuf := fun c hc hp => h c hp hc

theorem Owns.spared (h : Owns heap other bytes) (hapart : Apart other pbuf)
    (hspares : Spares heap pbuf heap' pbuf') : Owns heap' other bytes ∧ Apart other pbuf' := by
  constructor
  · cases h with
    | empty => exact .empty
    | block held pos limit fits => exact .block (hspares _ _ held (hapart _ rfl)).1 pos limit fits
  · intro c hc
    obtain ⟨block,hblock⟩ := h.live hc
    exact (hspares c block hblock (hapart c hc)).2

theorem Spares.refl (heap : Heap) (pbuf : PrivateBuffer) : Spares heap pbuf heap pbuf :=
  fun _ _ hc hne => ⟨hc,hne⟩

theorem spares_alloc (heap : Heap) (pbuf : PrivateBuffer) (new : Bytes) {data length real : Nat} :
    Spares heap pbuf (heap.alloc new).2 ⟨data,length,some (heap.alloc new).1,real⟩ := by
  intro c bytes hc _
  refine ⟨Heap.block_alloc_old hc new,fun heq => ?_⟩
  injection heq with heq
  exact Heap.alloc_ne hc new heq

theorem spares_put {top data data' len len' real real' : Nat} (new : Bytes) :
    Spares heap ⟨data,len,some top,real⟩ (heap.put top (some new)) ⟨data',len',some top,real'⟩ := by
  intro c bytes hc hne
  have hct : c ≠ top := fun h => hne (h ▸ rfl)
  exact ⟨(Heap.block_put_ne hct _).trans hc,hne⟩

end Basics

section Allocation

variable {heap : Heap} {length : Nat}

theorem owns_alloc (heap : Heap) (new : Bytes) (data len : Nat) (hpos : 0 < new.length)
    (hlimit : new.length ≤ ptrdiffMax) (hfits : data + len ≤ new.length) :
    Owns (heap.alloc new).2 ⟨data,len,some (heap.alloc new).1,new.length⟩ (slice new data len) :=
  .block (Heap.block_alloc_new heap new) hpos hlimit hfits

theorem allocNewData_spec (hlimit : length ≤ ptrdiffMax) :
    allocNewData heap length = .ok ((heap.alloc (List.replicate length 0xa5)).2,
      ⟨0,length,some (heap.alloc (List.replicate length 0xa5)).1,length⟩) := by
  rw [allocNewData,xmalloc_ok hlimit]
  rfl

theorem allocNewData_aborted (h : ptrdiffMax < length) :
    allocNewData heap length = .error .aborted := by
  rw [allocNewData,xmalloc_aborted h]
  rfl

theorem allocBufferWithLength_spec (heap : Heap) (hpos : 0 < length) :
    (ptrdiffMax < length ∧ allocBufferWithLength heap length = .error .aborted) ∨
    ∃ heap' pbuf, allocBufferWithLength heap length = .ok (heap',pbuf) ∧ Owns heap' pbuf [] ∧
      Spares heap allocPrivateBuffer heap' pbuf ∧ pbuf.data = 0 ∧ pbuf.realLength = length := by
  rw [allocBufferWithLength,abortIf_false hpos.ne',ok_bind]
  by_cases h : ptrdiffMax < length
  · left
    rw [xmalloc_aborted h]
    exact ⟨h,rfl⟩
  · right
    rw [xmalloc_ok (Nat.not_lt.mp h)]
    have howns := owns_alloc heap (List.replicate length 0xa5) 0 0
      (by simpa using hpos) (by simpa using Nat.not_lt.mp h) (by simp)
    rw [List.length_replicate] at howns
    exact ⟨_,_,rfl,howns,spares_alloc _ _ _,rfl,rfl⟩

end Allocation

theorem slice_stored {b bs : Bytes} {off k : Nat} (hk : bs.length = k)
    (h : off + bs.length ≤ b.length) : slice (overwrite b off bs) off k = bs :=
  hk ▸ slice_overwrite_self h

section Moving

variable {heap : Heap} {top data len n shift : Nat} {block : Bytes}

theorem reallocate_spec (held : heap.block top = some block) (fits : data + len ≤ block.length)
    (hshift : shift ≤ n) (hlimit : data + len + n ≤ ptrdiffMax) :
    ∃ heap' new, reallocate heap ⟨data,len,some top,block.length⟩ n shift =
        .ok (heap',⟨data,len,some new,data + len + n⟩) ∧
      heap'.block new = some (overwrite (List.replicate (data + len + n) 0xa5) (data + shift)
        (slice block data len)) ∧
      Spares heap ⟨data,len,some top,block.length⟩ heap' ⟨data,len,some new,data + len + n⟩ := by
  have hold : (slice block data len).length = len := length_slice fits
  have hsize : sizeT (data + len + n) = data + len + n := sizeT_eq (hlimit.trans (by decide))
  have hkept := Heap.block_alloc_old held (List.replicate (data + len + n) 0xa5)
  have hnew := Heap.block_alloc_new heap (List.replicate (data + len + n) 0xa5)
  have hne := Heap.alloc_ne held (List.replicate (data + len + n) 0xa5)
  have hput := Heap.block_put_self (Heap.lt_of_block hnew)
    (some (overwrite (List.replicate (data + len + n) 0xa5) (data + shift) (slice block data len)))
  have htop := (Heap.block_put_ne hne.symm
    (some (overwrite (List.replicate (data + len + n) 0xa5) (data + shift) (slice block data len)))).trans
      hkept
  refine ⟨_,(heap.alloc (List.replicate (data + len + n) 0xa5)).1,?_,
    (Heap.block_put_ne hne none).trans hput,?_⟩
  · simp only [reallocate,frontLengthOf,hsize,xmalloc_ok hlimit,ok_bind,dereference,
      Heap.load_block hkept,load_ok fits,
      Heap.store_block hnew (show data + shift + (slice block data len).length ≤ _ by
        rw [hold,List.length_replicate]; omega),Heap.free_block htop]
    rfl
  · intro c bytes hc hct
    have hcne : c ≠ top := fun h => hct (h ▸ rfl)
    refine ⟨?_,fun heq => ?_⟩
    · rw [Heap.block_put_ne hcne,Heap.block_put_ne (Heap.alloc_ne hc _).symm]
      exact Heap.block_alloc_old hc _
    · injection heq with heq
      exact Heap.alloc_ne hc _ heq

theorem reallocate_aborted {pbuf : PrivateBuffer} (hsum : pbuf.data + pbuf.length + n ≤ sizeMax)
    (h : ptrdiffMax < pbuf.data + pbuf.length + n) :
    reallocate heap pbuf n shift = .error .aborted := by
  rw [reallocate,frontLengthOf,sizeT_eq hsum,xmalloc_aborted h]
  rfl

end Moving

section Storing

variable {heap : Heap} {pbuf : PrivateBuffer} {bytes : Bytes}

theorem slice_overwrite_within {b bs : Bytes} {p len off : Nat} (hin : off + bs.length ≤ len)
    (hfits : p + len ≤ b.length) :
    slice (overwrite b (p + off) bs) p len = overwrite (slice b p len) off bs := by
  have hbound : p + off + bs.length ≤ b.length := by omega
  have hlen : len = off + (bs.length + (len - (off + bs.length))) := by omega
  have hbefore : slice (overwrite b (p + off) bs) p off = (slice b p len).take off := by
    rw [slice_overwrite_before (Nat.le_refl _) hbound,slice,slice,List.take_take,
      Nat.min_eq_left (by omega)]
  have hafter : slice (overwrite b (p + off) bs) (p + off + bs.length) (len - (off + bs.length)) =
      (slice b p len).drop (off + bs.length) := by
    rw [slice_overwrite_after _ (Nat.le_refl _) hbound,slice,slice,List.drop_take,List.drop_drop]
    congr 2
    omega
  conv_lhs => rw [hlen]
  rw [slice_join hbefore (slice_join (slice_overwrite_self hbound) hafter),overwrite,
    List.append_assoc]

-- The caller writes to the buffer through a pointer into its bytes.
theorem store_spec (h : Owns heap pbuf bytes) {top : Nat} (off : Nat) (bs : Bytes)
    (htop : pbuf.top = some top) (hin : off + bs.length ≤ bytes.length) : ∃ heap',
      (heap.store ⟨top,pbuf.data + off⟩ bs : Exec Heap) = .ok heap' ∧
        Owns heap' pbuf (overwrite bytes off bs) ∧ Spares heap pbuf heap' pbuf := by
  cases h with
  | empty => simp at htop
  | @block top data len block held hreal hblock hfits =>
    injection htop with htop
    subst htop
    rw [length_slice hfits] at hin
    have hroom : data + off + bs.length ≤ block.length := by omega
    have hlength := length_overwrite hroom
    refine ⟨_,Heap.store_block held hroom,?_,spares_put _⟩
    rw [← slice_overwrite_within hin hfits]
    have howns := Owns.block (Heap.block_put_self (Heap.lt_of_block held)
      (some (overwrite block (data + off) bs))) (by rw [hlength]; exact hreal)
      (by rw [hlength]; exact hblock) (by rw [hlength]; exact hfits)
    rwa [hlength] at howns

end Storing

-- A call that makes room for `n` more bytes.
structure Grows (heap : Heap) (pbuf : PrivateBuffer) (n : Nat) (heap' : Heap)
    (pbuf' : PrivateBuffer) (bytes' : Bytes) : Prop where
  owns : Owns heap' pbuf' bytes'
  spares : Spares heap pbuf heap' pbuf'
  data : pbuf'.data = pbuf.data
  length : pbuf'.length = pbuf.length + n
  realLength : pbuf'.realLength = max pbuf.realLength (pbuf.data + pbuf.length + n)

section Appending

variable {heap : Heap} {pbuf : PrivateBuffer} {bytes : Bytes} {n : Nat}

theorem alreadyAllocated_iff (hsum : pbuf.data + pbuf.length + n ≤ sizeMax) :
    alreadyAllocated pbuf n = true ↔ pbuf.data + pbuf.length + n ≤ pbuf.realLength := by
  rw [alreadyAllocated,frontLengthOf,sizeT_eq hsum,decide_eq_true_eq]

theorem grows_new (hpos : 0 < n) (hlimit : n ≤ ptrdiffMax) :
    Grows heap allocPrivateBuffer n (heap.alloc (List.replicate n 0xa5)).2
      ⟨0,n,some (heap.alloc (List.replicate n 0xa5)).1,n⟩ (List.replicate n 0xa5) := by
  have howns := owns_alloc heap (List.replicate n 0xa5) 0 n
    (by simpa using hpos) (by simpa using hlimit) (by simp)
  rw [List.length_replicate,slice_whole (List.length_replicate ..)] at howns
  exact ⟨howns,spares_alloc _ _ _,rfl,(Nat.zero_add _).symm,by simp [allocPrivateBuffer]⟩

variable {top data len : Nat} {block : Bytes}

theorem grows_inside (held : heap.block top = some block) (hpos : 0 < block.length)
    (hlimit : block.length ≤ ptrdiffMax) (hroom : data + len + n ≤ block.length) :
    Grows heap ⟨data,len,some top,block.length⟩ n heap ⟨data,len + n,some top,block.length⟩
      (slice block data len ++ slice block (data + len) n) := by
  have howns : Owns heap ⟨data,len + n,some top,block.length⟩ (slice block data (len + n)) :=
    .block held hpos hlimit (by omega)
  rw [slice_join rfl rfl] at howns
  exact ⟨howns,fun c bytes hc hne => ⟨hc,hne⟩,rfl,rfl,(Nat.max_eq_left hroom).symm⟩

-- The contents move up inside the block and zeros take their place.
theorem shifted_inside (held : heap.block top = some block) (hpos : 0 < block.length)
    (hlimit : block.length ≤ ptrdiffMax) (hroom : data + len + n ≤ block.length) :
    ∃ heap₁ heap₂,
      (heap.store ⟨top,data + n⟩ (slice block data len) : Exec Heap) = .ok heap₁ ∧
      (heap₁.store ⟨top,data⟩ (List.replicate n 0) : Exec Heap) = .ok heap₂ ∧
      Owns heap₂ ⟨data,len + n,some top,block.length⟩ (List.replicate n 0 ++ slice block data len) ∧
      Spares heap ⟨data,len,some top,block.length⟩ heap₂ ⟨data,len + n,some top,block.length⟩ := by
  have hold : (slice block data len).length = len := length_slice (by omega)
  have htail : (slice block (data + len) n).length = n := length_slice hroom
  have hzeros : (List.replicate n (0 : UInt8)).length = n := List.length_replicate ..
  have htotal : (slice block data len ++ slice block (data + len) n).length = len + n := by
    rw [List.length_append,hold,htail]
  obtain ⟨heap₁,hfirst,howns₁,hspares₁⟩ :=
    store_spec (grows_inside held hpos hlimit hroom).owns n (slice block data len) rfl
      (by omega)
  have hcopied : overwrite (slice block data len ++ slice block (data + len) n) n
      (slice block data len) =
        (slice block data len ++ slice block (data + len) n).take n ++ slice block data len := by
    rw [overwrite,List.drop_eq_nil_of_le (by omega),List.append_nil]
  have hcount : ((slice block data len ++ slice block (data + len) n).take n).length = n := by
    rw [List.length_take]
    omega
  rw [hcopied] at howns₁
  obtain ⟨heap₂,hsecond,howns₂,hspares₂⟩ :=
    store_spec howns₁ 0 (List.replicate n 0) rfl (by rw [List.length_append]; omega)
  have hcleared : overwrite ((slice block data len ++ slice block (data + len) n).take n ++
      slice block data len) 0 (List.replicate n 0) = List.replicate n 0 ++ slice block data len := by
    rw [overwrite,List.take_zero,List.nil_append,Nat.zero_add,hzeros,List.drop_left' hcount]
  rw [hcleared] at howns₂
  refine ⟨heap₁,heap₂,hfirst,hsecond,howns₂,fun c bytes hc hne => ?_⟩
  exact hspares₂ c bytes (hspares₁ c bytes hc hne).1 hne

theorem grows_moved {heap' : Heap} {new : Nat} {moved bytes' : Bytes} (hlen : moved.length = data + len + n) (hlimit : data + len + n ≤ ptrdiffMax)
    (hmore : block.length < data + len + n) (held : heap'.block new = some moved)
    (hspares : Spares heap ⟨data,len,some top,block.length⟩ heap' ⟨data,len,some new,data + len + n⟩)
    (hbytes : slice moved data (len + n) = bytes') :
    Grows heap ⟨data,len,some top,block.length⟩ n heap' ⟨data,len + n,some new,data + len + n⟩
      bytes' := by
  have howns : Owns heap' ⟨data,len + n,some new,moved.length⟩ (slice moved data (len + n)) :=
    .block held (by omega) (by omega) (by omega)
  rw [hbytes,hlen] at howns
  exact ⟨howns,hspares,rfl,rfl,(Nat.max_eq_right hmore.le).symm⟩

theorem appendBackBuffer_spec (h : Owns heap pbuf bytes) (hpos : 0 < n)
    (hsum : pbuf.data + pbuf.length + n ≤ sizeMax) :
    (ptrdiffMax < pbuf.data + pbuf.length + n ∧ appendBackBuffer heap pbuf n = .error .aborted) ∨
    ∃ new top heap' pbuf', appendBackBuffer heap pbuf n =
        .ok (⟨top,pbuf'.data + bytes.length⟩,heap',pbuf') ∧ new.length = n ∧
      Grows heap pbuf n heap' pbuf' (bytes ++ new) ∧ pbuf'.top = some top := by
  rw [appendBackBuffer,abortIf_false hpos.ne',ok_bind]
  cases h with
  | empty =>
    rw [if_pos rfl]
    rcases Nat.lt_or_ge ptrdiffMax n with hlimit | hlimit
    · left
      rw [allocNewData_aborted hlimit]
      exact ⟨by simpa using hlimit,rfl⟩
    · right
      rw [allocNewData_spec hlimit]
      exact ⟨_,_,_,_,rfl,List.length_replicate ..,grows_new hpos hlimit,rfl⟩
  | @block top data len block held hreal hblock hfits =>
    have hold : (slice block data len).length = len := length_slice hfits
    simp only at hsum ⊢
    rw [if_neg hreal.ne',hold]
    by_cases hroom : data + len + n ≤ block.length
    · right
      rw [if_pos ((alreadyAllocated_iff hsum).mpr hroom)]
      refine ⟨_,top,heap,_,?_,length_slice hroom,grows_inside held hreal hblock hroom,rfl⟩
      simp only [pure_eq_ok,ok_bind,dereference,sizeT_eq (show len + n ≤ sizeMax by omega)]
    · rw [if_neg (fun h => hroom ((alreadyAllocated_iff hsum).mp h)),appendBack]
      rcases Nat.lt_or_ge ptrdiffMax (data + len + n) with hlimit | hlimit
      · left
        rw [reallocate_aborted hsum hlimit]
        exact ⟨hlimit,rfl⟩
      · right
        obtain ⟨heap',new,hmoved,hheld,hspares⟩ :=
          reallocate_spec held hfits (Nat.zero_le n) hlimit
        rw [Nat.add_zero] at hheld
        have hbound : data + (slice block data len).length ≤
            (List.replicate (data + len + n) (0xa5 : UInt8)).length := by
          rw [hold,List.length_replicate]
          omega
        have hsame : slice (overwrite (List.replicate (data + len + n) 0xa5) data
            (slice block data len)) data len = slice block data len := slice_stored hold hbound
        have hlength := length_overwrite hbound
        rw [List.length_replicate] at hlength
        refine ⟨_,new,heap',_,?_,length_slice (by rw [hlength]),
          grows_moved hlength hlimit (by omega) hheld hspares (slice_join hsame rfl),rfl⟩
        simp only [hmoved,ok_bind,pure_eq_ok,dereference,sizeT_eq (show len + n ≤ sizeMax by omega)]

theorem appendFrontBuffer_spec (h : Owns heap pbuf bytes) (hpos : 0 < n)
    (hsum : pbuf.data + pbuf.length + n ≤ sizeMax) :
    (ptrdiffMax < pbuf.data + pbuf.length + n ∧ appendFrontBuffer heap pbuf n = .error .aborted) ∨
    ∃ new top heap' pbuf', appendFrontBuffer heap pbuf n = .ok (⟨top,pbuf'.data⟩,heap',pbuf') ∧
      new.length = n ∧ Grows heap pbuf n heap' pbuf' (new ++ bytes) ∧ pbuf'.top = some top := by
  rw [appendFrontBuffer,abortIf_false hpos.ne',ok_bind]
  cases h with
  | empty =>
    rw [if_pos rfl]
    rcases Nat.lt_or_ge ptrdiffMax n with hlimit | hlimit
    · left
      rw [allocNewData_aborted hlimit]
      exact ⟨by simpa using hlimit,rfl⟩
    · right
      rw [allocNewData_spec hlimit]
      refine ⟨List.replicate n 0xa5,_,_,_,rfl,List.length_replicate ..,?_,rfl⟩
      rw [List.append_nil]
      exact grows_new hpos hlimit
  | @block top data len block held hreal hblock hfits =>
    have hold : (slice block data len).length = len := length_slice hfits
    simp only at hsum ⊢
    rw [if_neg (by simp)]
    by_cases hroom : data + len + n ≤ block.length
    · right
      obtain ⟨heap₁,heap₂,hfirst,hsecond,howns,hspares⟩ := shifted_inside held hreal hblock hroom
      rw [if_pos ((alreadyAllocated_iff hsum).mpr hroom)]
      refine ⟨List.replicate n 0,top,heap₂,⟨data,len + n,some top,block.length⟩,?_,
        List.length_replicate ..,⟨howns,hspares,rfl,rfl,(Nat.max_eq_left hroom).symm⟩,rfl⟩
      simp only [ok_bind,dereference,Heap.load_block held,load_ok hfits,hfirst,hsecond,pure_eq_ok,
        sizeT_eq (show len + n ≤ sizeMax by omega)]
    · rw [if_neg (fun h => hroom ((alreadyAllocated_iff hsum).mp h)),appendFront]
      rcases Nat.lt_or_ge ptrdiffMax (data + len + n) with hlimit | hlimit
      · left
        rw [reallocate_aborted hsum hlimit]
        exact ⟨hlimit,rfl⟩
      · right
        obtain ⟨heap',new,hmoved,hheld,hspares⟩ := reallocate_spec held hfits (Nat.le_refl n) hlimit
        have hbound : data + n + (slice block data len).length ≤
            (List.replicate (data + len + n) (0xa5 : UInt8)).length := by
          rw [hold,List.length_replicate]
          omega
        have hlength := length_overwrite hbound
        rw [List.length_replicate] at hlength
        refine ⟨_,new,heap',_,?_,length_slice (show data + n ≤ _ by rw [hlength]; omega),
          grows_moved hlength hlimit (by omega) hheld hspares (by
            rw [Nat.add_comm len n]
            exact slice_join rfl (slice_stored hold hbound)),rfl⟩
        simp only [hmoved,ok_bind,pure_eq_ok,dereference,sizeT_eq (show len + n ≤ sizeMax by omega)]

end Appending

section Changes

variable {heap : Heap} {pbuf : PrivateBuffer} {bytes : Bytes} {n : Nat}

theorem removeFrontBuffer_spec (h : Owns heap pbuf bytes) (hpos : 0 < n) (hle : n ≤ pbuf.length) :
    ∃ pbuf', removeFrontBuffer pbuf n = .ok pbuf' ∧ Owns heap pbuf' (bytes.drop n) ∧
      Spares heap pbuf heap pbuf' ∧ pbuf'.data = pbuf.data + n ∧
      pbuf'.realLength = pbuf.realLength ∧ pbuf'.top = pbuf.top := by
  refine ⟨{ pbuf with data := pbuf.data + n, length := pbuf.length - n },?_,?_,
    fun c bytes hc hne => ⟨hc,hne⟩,rfl,rfl,rfl⟩
  · rw [removeFrontBuffer,abortIf_false hpos.ne',ok_bind,abortIf_false (Nat.not_lt.mpr hle)]
    rfl
  · cases h with
    | empty => exact absurd hle (Nat.not_le.mpr hpos)
    | @block top data len block held hreal hblock hfits =>
      simp only at hle ⊢
      have hdrop : (slice block data len).drop n = slice block (data + n) (len - n) := by
        rw [slice,slice,List.drop_take,List.drop_drop]
      rw [hdrop]
      exact .block held hreal hblock (by omega)

-- The copy has the head room of the original.
theorem duplicateBuffer_spec (h : Owns heap pbuf bytes) : ∃ heap' copy,
    duplicateBuffer heap pbuf = .ok (heap',copy) ∧ Owns heap' copy bytes ∧
      Spares heap allocPrivateBuffer heap' copy ∧ copy.data = pbuf.data ∧
      copy.realLength = pbuf.realLength := by
  cases h with
  | empty => exact ⟨heap,allocPrivateBuffer,rfl,.empty,Spares.refl _ _,rfl,rfl⟩
  | @block top data len block held hreal hblock hfits =>
    have hnew := Heap.block_alloc_new heap (List.replicate block.length 0xa5)
    have hkept := Heap.block_alloc_old held (List.replicate block.length 0xa5)
    have hwhole : slice block 0 block.length = block := slice_whole rfl
    have hcopied : overwrite (List.replicate block.length 0xa5) 0 block = block := by
      simp [overwrite]
    have hput := Heap.block_put_self (Heap.lt_of_block hnew) (some block)
    refine ⟨_,⟨data,len,some (heap.alloc (List.replicate block.length 0xa5)).1,block.length⟩,?_,
      .block hput hreal hblock hfits,?_,rfl,rfl⟩
    · have hstore := @Heap.store_block Empty _ _ _ block 0 hnew (by simp)
      rw [hcopied] at hstore
      rw [duplicateBuffer,if_neg hreal.ne',xmalloc_ok hblock]
      simp only [ok_bind,dereference,Heap.load_block hkept,load_ok (show 0 + block.length ≤
        block.length by omega),hwhole,hstore]
      rfl
    · intro c bytes hc _
      refine ⟨?_,fun heq => ?_⟩
      · rw [Heap.block_put_ne (Heap.alloc_ne hc _).symm]
        exact Heap.block_alloc_old hc _
      · injection heq with heq
        exact Heap.alloc_ne hc _ heq

theorem freeBuffer_spec (h : Owns heap pbuf bytes) : ∃ heap', freeBuffer heap pbuf = .ok heap' ∧
    Spares heap pbuf heap' allocPrivateBuffer := by
  cases h with
  | empty => exact ⟨heap,rfl,Spares.refl _ _⟩
  | @block top data len block held hreal hblock hfits =>
    refine ⟨_,Heap.free_block held,fun c bytes hc hne => ⟨?_,by simp [allocPrivateBuffer]⟩⟩
    rw [Heap.block_put_ne fun heq => hne (congrArg some heq.symm)]
    exact hc

end Changes

end Trema.Buffer
