import Trema.SecureChannel.Buffer
import Trema.Library.Region

namespace Trema.SecureChannel

open Library
open OpenFlow (Exec abortIf xmalloc)

variable {heap : Nat → UInt8} {b : Buffer} {bs : Bytes}

-- A write through a pointer into the buffer's memory.
def Buffer.put (b : Buffer) (place : Nat) (bs : Bytes) : Exec Buffer := do
  let top ← store b.top place bs
  pure { b with top := top }

theorem store_overwrite {m : Bytes} {off : Nat} (h : off + bs.length ≤ m.length) :
    (store m off bs : Exec Bytes) = .ok (overwrite m off bs) := store_ok h

theorem Buffer.put_ok {place : Nat} (h : place + bs.length ≤ b.top.length) :
    b.put place bs = .ok { b with top := overwrite b.top place bs } := by
  rw [Buffer.put,store_overwrite h,ok_bind]
  rfl

theorem appendBack_spec (heap : Nat → UInt8) (hb : b.Inside) (n : Nat) : (appendBack heap b n).bytes = b.bytes ∧
    (appendBack heap b n).data + (appendBack heap b n).length + n = (appendBack heap b n).top.length := by
  have hlen : b.bytes.length = b.length := hb.length_bytes
  have htop : (xmalloc heap (b.data + b.length + n)).length = b.data + b.length + n := length_xmalloc _ _
  constructor
  · have hslice := @slice_overwrite_self (xmalloc heap (b.data + b.length + n)) b.bytes b.data
      (by rw [htop,hlen]; omega)
    rwa [hlen] at hslice
  · simp only [appendBack]
    rw [length_overwrite (by rw [htop,hlen]; omega),htop]

structure Appended (b : Buffer) (n : Nat) (place : Nat) (b' : Buffer) : Prop where
  data : b'.data = b.data
  length : b'.length = b.length + n
  place : place = b.data + b.length
  fits : b'.data + b'.length ≤ b'.top.length
  front : slice b'.top b.data b.length = b.bytes

theorem appendBackBuffer_spec (heap : Nat → UInt8) (hb : b.Inside) {n : Nat} (hn : 0 < n) :
    ∃ place b', appendBackBuffer heap b n = .ok (place,b') ∧ Appended b n place b' := by
  have hfits := hb.fits
  have habort : (abortIf (n = 0) : Exec Unit) = .ok () := abortIf_false (Nat.ne_of_gt hn)
  by_cases hreal : b.realLength = 0
  · have hzero : b.top.length = 0 := hreal
    refine ⟨0,allocNewData heap n,?_,?_⟩
    · rw [appendBackBuffer,habort,ok_bind,if_pos hreal]
      rfl
    · refine ⟨?_,?_,?_,?_,?_⟩
      · simp only [allocNewData]
        omega
      · simp only [allocNewData]
        omega
      · omega
      · simp [allocNewData,length_xmalloc]
      · have hl : b.length = 0 := by omega
        simp [Buffer.bytes,slice,hl]
  · by_cases hroom : alreadyAllocated b n = true
    · refine ⟨b.data + b.length,{ b with length := b.length + n },?_,⟨rfl,rfl,rfl,?_,rfl⟩⟩
      · rw [appendBackBuffer,habort,ok_bind,if_neg hreal,if_pos hroom]
        rfl
      · have hle : b.data + b.length + n ≤ b.realLength := of_decide_eq_true hroom
        simp only [Buffer.realLength] at hle
        simp only
        omega
    · obtain ⟨hbytes,htop⟩ := appendBack_spec heap hb n
      refine ⟨b.data + b.length,{ appendBack heap b n with length := b.length + n },?_,⟨rfl,rfl,rfl,?_,hbytes⟩⟩
      · rw [appendBackBuffer,habort,ok_bind,if_neg hreal,if_neg hroom]
        rfl
      · simp only [appendBack] at htop ⊢
        omega

structure Extended (b : Buffer) (bs : Bytes) (b' : Buffer) : Prop where
  data : b'.data = b.data
  bytes : b'.bytes = b.bytes ++ bs
  inside : b'.Inside

theorem Appended.put {n place : Nat} {b' : Buffer} (h : Appended b n place b') (hn : bs.length = n) :
    ∃ b'', b'.put place bs = .ok b'' ∧ Extended b bs b'' := by
  have hfits := h.fits
  have hlen := h.length
  have hdata := h.data
  have hplace := h.place
  have hroom : place + bs.length ≤ b'.top.length := by omega
  refine ⟨_,Buffer.put_ok hroom,hdata,?_,⟨?_⟩⟩
  · have hfront : slice (overwrite b'.top place bs) b.data b.length = b.bytes := by
      rw [slice_overwrite_before (by omega) hroom,h.front]
    have hback : slice (overwrite b'.top place bs) (b.data + b.length) bs.length = bs := by
      rw [← hplace]
      exact slice_overwrite_self hroom
    simp only [Buffer.bytes]
    rw [hdata,hlen,← hn]
    exact slice_join hfront hback
  · simp only
    rw [length_overwrite hroom]
    exact hfits

theorem append_put (heap : Nat → UInt8) (hb : b.Inside) (hpos : bs ≠ []) :
    ∃ place b' b'', appendBackBuffer heap b bs.length = .ok (place,b') ∧
    place = b.data + b.length ∧ b'.put place bs = .ok b'' ∧ Extended b bs b'' := by
  obtain ⟨place,b',happend,h⟩ := appendBackBuffer_spec heap hb (List.length_pos_iff.mpr hpos)
  obtain ⟨b'',hput,hextended⟩ := h.put rfl
  exact ⟨place,b',b'',happend,h.place,hput,hextended⟩

theorem Extended.trans {b' b'' : Buffer} {cs : Bytes} (h : Extended b bs b') (h' : Extended b' cs b'') :
    Extended b (bs ++ cs) b'' :=
  ⟨h'.data.trans h.data,by rw [h'.bytes,h.bytes,List.append_assoc],h'.inside⟩

theorem inside_alloc (heap : Nat → UInt8) (n : Nat) : Buffer.Inside ⟨xmalloc heap n,0,0⟩ := ⟨by simp⟩

theorem bytes_alloc (n : Nat) : Buffer.bytes ⟨xmalloc heap n,0,0⟩ = [] := rfl

theorem drop_overwrite {m : Bytes} {d k : Nat} (hd : d + k ≤ m.length) :
    (overwrite m (d + k) bs).drop d = overwrite (m.drop d) k bs := by
  have hle : d ≤ (m.take (d + k)).length := by
    rw [List.length_take]
    omega
  rw [overwrite,overwrite,List.append_assoc,List.drop_append_of_le_length hle,List.drop_take,List.drop_drop,
    Nat.add_sub_cancel_left,Nat.add_assoc,List.append_assoc]

theorem take_overwrite {m : Bytes} {k n : Nat} (h : k + bs.length ≤ n) (hn : n ≤ m.length) :
    (overwrite m k bs).take n = overwrite (m.take n) k bs := by
  have hhead : (m.take k ++ bs).length = k + bs.length := by
    rw [List.length_append,List.length_take,Nat.min_eq_left (by omega)]
  rw [overwrite,overwrite,List.take_append,hhead,List.take_of_length_le (by rw [hhead]; exact h),List.take_take,
    Nat.min_eq_left (by omega),List.drop_take]

-- A write inside the buffer's own bytes.
theorem Buffer.Inside.rewrite (hb : b.Inside) (k : Nat) (bs : Bytes) (h : k + bs.length ≤ b.length) :
    ∃ b', b.put (b.data + k) bs = .ok b' ∧ b'.data = b.data ∧ b'.length = b.length ∧ b'.Inside ∧
      b'.bytes = overwrite b.bytes k bs := by
  have hfits := hb.fits
  have hroom : b.data + k + bs.length ≤ b.top.length := by omega
  refine ⟨_,Buffer.put_ok hroom,rfl,rfl,⟨?_⟩,?_⟩
  · simp only
    rw [length_overwrite hroom]
    exact hfits
  · simp only [Buffer.bytes,slice]
    rw [drop_overwrite (by omega),
      take_overwrite h (by rw [List.length_drop]; omega)]

theorem Extended.rewrite (xs old ys bs : Bytes) {b' : Buffer} (hb : b.Inside) (h : Extended b (xs ++ old ++ ys) b')
    (hlen : bs.length = old.length) : ∃ b'', b'.put (b.data + b.length + xs.length) bs = .ok b'' ∧
      Extended b (xs ++ bs ++ ys) b'' := by
  have hsize : b'.length = b.length + (xs ++ old ++ ys).length := by
    rw [← h.inside.length_bytes,h.bytes,List.length_append,hb.length_bytes]
  obtain ⟨b'',hput,hdata,_,hinside,hbytes⟩ := h.inside.rewrite (b.length + xs.length) bs (by
    rw [hsize,List.length_append,List.length_append,hlen]
    omega)
  refine ⟨b'',?_,hdata.trans h.data,?_,hinside⟩
  · rw [h.data,← Nat.add_assoc] at hput
    exact hput
  · rw [hbytes,h.bytes,overwrite_mid (b.bytes ++ xs) old ys (by simp) (by simp [hb.length_bytes]) hlen]
    simp

end Trema.SecureChannel
