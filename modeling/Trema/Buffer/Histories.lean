import Trema.Buffer.Sequences

namespace Trema.Buffer

open Library
open Utility (ptrdiffMax sizeMax)

namespace Memory

variable (m : Memory)

-- The bytes an append needs, counted from the start of the block.
def demand (buf length : Nat) : Nat :=
  match m.live buf with
  | none => 0
  | some pbuf => pbuf.data + pbuf.length + length

def Permitted : Op → Prop
  | .allocBuffer => True
  | .allocBufferWithLength length => 0 < length ∧ length ≤ sizeMax
  | .appendFront buf length => 0 < length ∧ length ≤ sizeMax ∧ (m.live buf).isSome
  | .appendBack buf length => 0 < length ∧ length ≤ sizeMax ∧ (m.live buf).isSome
  | .removeFront buf length => 0 < length ∧ ∃ pbuf, m.live buf = some pbuf ∧ length ≤ pbuf.length
  | .duplicate buf => (m.live buf).isSome
  | .free buf => (m.live buf).isSome
  | .write buf off bytes => 0 < bytes.length ∧
      ∃ pbuf, m.live buf = some pbuf ∧ off + bytes.length ≤ pbuf.length

-- The sum of already_allocated does not wrap.
def Fits : Op → Prop
  | .appendFront buf length => m.demand buf length ≤ sizeMax
  | .appendBack buf length => m.demand buf length ≤ sizeMax
  | _ => True

-- The process ends in xmalloc.
def Exhausts : Op → Prop
  | .allocBufferWithLength length => ptrdiffMax < length
  | .appendFront buf length => ptrdiffMax < m.demand buf length
  | .appendBack buf length => ptrdiffMax < m.demand buf length
  | _ => False

def Keeps (s : Sequences) (op : Op) : Prop :=
  (m.Exhausts op ∧ m.perform op = .error .aborted) ∨
    ∃ answer m' s', m.perform op = .ok (answer,m') ∧ Change m' s op answer s' ∧ Represents m' s'

end Memory

inductive Reached : Memory → Prop
  | start : Reached ⟨⟨[]⟩,[]⟩
  | step {m m' : Memory} {op : Op} {answer : Answer} (reached : Reached m)
      (permitted : m.Permitted op) (fits : m.Fits op) (performed : m.perform op = .ok (answer,m')) :
      Reached m'

section Steps

variable {m : Memory} {s : Sequences} {op : Op}

theorem place_set {buf i top : Nat} {heap' : Heap} {pbuf pbuf' : PrivateBuffer}
    (hlive : m.live buf = some pbuf) (htop : pbuf'.top = some top) :
    (m.set heap' buf (some pbuf')).place buf i = some ⟨top,pbuf'.data + i⟩ := by
  have hself : (m.set heap' buf (some pbuf')).live buf = some pbuf' :=
    join_set_self (lt_of_join hlive) _
  simp only [Memory.place,hself,htop,Option.map_some]

theorem Represents.keeps (h : Represents m s) (hp : m.Permitted op) (hf : m.Fits op) :
    m.Keeps s op := by
  cases op with
  | allocBuffer =>
    refine .inr ⟨_,_,_,rfl,?_,h.push .empty (Spares.refl _ _)⟩
    rw [h.length]
    exact .allocBuffer
  | allocBufferWithLength length =>
    rcases allocBufferWithLength_spec m.heap hp.1 with
      ⟨hlimit,habort⟩ | ⟨heap',pbuf,hok,howns,hspares,_⟩
    · refine .inl ⟨hlimit,?_⟩
      rw [Memory.perform,habort]
      rfl
    · refine .inr ⟨(m.push heap' pbuf).1,_,_,?_,?_,h.push howns hspares⟩
      · rw [Memory.perform,hok]
        rfl
      · rw [Memory.push,h.length]
        exact .allocBufferWithLength
  | appendFront buf length =>
    obtain ⟨hpos,_,hsome⟩ := hp
    obtain ⟨pbuf,hlive⟩ := Option.isSome_iff_exists.mp hsome
    obtain ⟨hget,old,hold,howns⟩ := h.get hlive
    rw [Memory.Fits,Memory.demand,hlive] at hf
    rcases appendFrontBuffer_spec howns hpos hf with ⟨hlimit,habort⟩ |
      ⟨new,top,heap',pbuf',hok,rfl,hgrows,htop⟩
    · refine .inl ⟨?_,?_⟩
      · rw [Memory.Exhausts,Memory.demand,hlive]
        exact hlimit
      · rw [Memory.perform,hget,ok_bind,habort]
        rfl
    · refine .inr ⟨_,_,_,?_,.appendFront hold (place_set hlive htop),h.set hlive hgrows.owns hgrows.spares⟩
      rw [Memory.perform,hget,ok_bind,hok]
      rfl
  | removeFront buf length =>
    obtain ⟨hpos,pbuf,hlive,hle⟩ := hp
    obtain ⟨hget,old,hold,howns⟩ := h.get hlive
    obtain ⟨top,htop⟩ := howns.top_isSome (by have := howns.room; omega)
    obtain ⟨pbuf',hok,howns',hspares,_,_,hsame⟩ := removeFrontBuffer_spec howns hpos hle
    have htop' : pbuf'.top = some top := hsame.trans htop
    refine .inr ⟨_,_,_,?_,.removeFront hold (place_set hlive htop'),h.set hlive howns' hspares⟩
    rw [Memory.perform,hget,ok_bind,hok,ok_bind,htop']
    rfl
  | appendBack buf length =>
    obtain ⟨hpos,_,hsome⟩ := hp
    obtain ⟨pbuf,hlive⟩ := Option.isSome_iff_exists.mp hsome
    obtain ⟨hget,old,hold,howns⟩ := h.get hlive
    rw [Memory.Fits,Memory.demand,hlive] at hf
    rcases appendBackBuffer_spec howns hpos hf with ⟨hlimit,habort⟩ |
      ⟨new,top,heap',pbuf',hok,rfl,hgrows,htop⟩
    · refine .inl ⟨?_,?_⟩
      · rw [Memory.Exhausts,Memory.demand,hlive]
        exact hlimit
      · rw [Memory.perform,hget,ok_bind,habort]
        rfl
    · refine .inr ⟨_,_,_,?_,.appendBack hold (place_set hlive htop),h.set hlive hgrows.owns hgrows.spares⟩
      rw [Memory.perform,hget,ok_bind,hok]
      rfl
  | duplicate buf =>
    obtain ⟨pbuf,hlive⟩ := Option.isSome_iff_exists.mp hp
    obtain ⟨hget,old,hold,howns⟩ := h.get hlive
    obtain ⟨heap',copy,hok,hcopy,hspares,_⟩ := duplicateBuffer_spec howns
    refine .inr ⟨(m.push heap' copy).1,_,_,?_,?_,h.push hcopy hspares⟩
    · rw [Memory.perform,hget,ok_bind,hok]
      rfl
    · rw [Memory.push,h.length]
      exact .duplicate hold
  | free buf =>
    obtain ⟨pbuf,hlive⟩ := Option.isSome_iff_exists.mp hp
    obtain ⟨hget,old,hold,howns⟩ := h.get hlive
    obtain ⟨heap',hok,hspares⟩ := freeBuffer_spec howns
    refine .inr ⟨_,_,_,?_,.free,h.drop hlive hspares⟩
    rw [Memory.perform,hget,ok_bind,hok]
    rfl
  | write buf off bytes =>
    obtain ⟨hpos,pbuf,hlive,hin⟩ := hp
    obtain ⟨hget,old,hold,howns⟩ := h.get hlive
    obtain ⟨top,htop⟩ := howns.top_isSome (by have := howns.room; omega)
    obtain ⟨heap',hok,howns',hspares⟩ :=
      store_spec howns off bytes htop (by rw [howns.length_eq]; exact hin)
    have hsame : m.set heap' buf (some pbuf) = { m with heap := heap' } :=
      congrArg (Memory.mk heap') (set_of_join hlive)
    refine .inr ⟨_,_,_,?_,.write hold,hsame ▸ h.set hlive howns' hspares⟩
    rw [Memory.perform,hget,ok_bind,htop]
    simp only [dereference,ok_bind,hok]
    rfl

theorem represents_start : Represents ⟨⟨[]⟩,[]⟩ [] :=
  ⟨rfl,fun _ _ h => by simp [Memory.live] at h,fun _ _ h => by simp [Sequences.live] at h,
    fun _ _ _ _ _ h => by simp [Memory.live] at h⟩

theorem Reached.represents (h : Reached m) : ∃ s, Represents m s := by
  induction h with
  | start => exact ⟨[],represents_start⟩
  | step _ permitted fits performed ih =>
    obtain ⟨s,hs⟩ := ih
    rcases hs.keeps permitted fits with ⟨_,habort⟩ | ⟨_,_,s',hok,_,hs'⟩
    · rw [habort] at performed
      simp at performed
    · rw [hok] at performed
      injection performed with performed
      injection performed with _ performed
      exact ⟨s',performed ▸ hs'⟩

end Steps

section Wrapping

variable {m : Memory} {s : Sequences} {heap : Heap} {top data len n : Nat} {block : Bytes}

theorem sizeT_wrapped (hn : n ≤ sizeMax) (hin : data + len ≤ ptrdiffMax)
    (hwrap : sizeMax < data + len + n) : sizeT (data + len + n) < data + len := by
  rw [sizeT]
  rw [ptrdiffMax] at hin
  rw [sizeMax] at *
  omega

theorem alreadyAllocated_wrapped (hn : n ≤ sizeMax) (hlimit : block.length ≤ ptrdiffMax)
    (hfits : data + len ≤ block.length) (hwrap : sizeMax < data + len + n) :
    alreadyAllocated ⟨data,len,some top,block.length⟩ n = true := by
  have hsmall := sizeT_wrapped hn (hfits.trans hlimit) hwrap
  exact decide_eq_true (hsmall.le.trans hfits)

theorem appendBackBuffer_wrapped (heap : Heap) (top : Nat) (hpos : 0 < n) (hn : n ≤ sizeMax) (hreal : 0 < block.length)
    (hlimit : block.length ≤ ptrdiffMax) (hfits : data + len ≤ block.length)
    (hwrap : sizeMax < data + len + n) :
    appendBackBuffer heap ⟨data,len,some top,block.length⟩ n =
      .ok (⟨top,data + len⟩,heap,⟨data,sizeT (len + n),some top,block.length⟩) := by
  rw [appendBackBuffer,abortIf_false hpos.ne',ok_bind,if_neg hreal.ne',
    if_pos (alreadyAllocated_wrapped hn hlimit hfits hwrap)]
  rfl

theorem appendFrontBuffer_wrapped (held : heap.block top = some block) (hpos : 0 < n)
    (hn : n ≤ sizeMax) (hlimit : block.length ≤ ptrdiffMax) (hfits : data + len ≤ block.length)
    (hwrap : sizeMax < data + len + n) :
    appendFrontBuffer heap ⟨data,len,some top,block.length⟩ n = .error .outOfBounds := by
  have hold : (slice block data len).length = len := length_slice hfits
  have hout : ¬ data + n + (slice block data len).length ≤ block.length := by
    rw [hold]
    rw [ptrdiffMax] at hlimit
    rw [sizeMax] at hwrap
    omega
  have hstore : (heap.store ⟨top,data + n⟩ (slice block data len) : Exec Heap) =
      .error .outOfBounds := by
    simp only [Heap.store,held,store,if_neg hout]
    rfl
  rw [appendFrontBuffer,abortIf_false hpos.ne',ok_bind,if_neg (by simp),
    if_pos (alreadyAllocated_wrapped hn hlimit hfits hwrap)]
  simp only [dereference,ok_bind,Heap.load_block held,load_ok hfits,hstore,error_bind]

theorem Represents.unfit (h : Represents m s) {op : Op} (hp : m.Permitted op) (hf : ¬ m.Fits op) :
    ¬ m.Keeps s op := by
  cases op with
  | appendBack buf n =>
    obtain ⟨hpos,hn,hsome⟩ := hp
    obtain ⟨pbuf,hlive⟩ := Option.isSome_iff_exists.mp hsome
    obtain ⟨hget,old,hold,howns⟩ := h.get hlive
    rw [Memory.Fits,Memory.demand,hlive] at hf
    cases howns with
    | empty => exact absurd hn (by simpa using hf)
    | @block top data len block held hreal hlimit hfits =>
      have hwrap : sizeMax < data + len + n := Nat.not_le.mp hf
      have hok := appendBackBuffer_wrapped m.heap top hpos hn hreal hlimit hfits hwrap
      have hperform : m.perform (.appendBack buf n) = .ok (.pointer ⟨top,data + len⟩,
          m.set m.heap buf (some ⟨data,sizeT (len + n),some top,block.length⟩)) := by
        rw [Memory.perform,hget,ok_bind,hok]
        rfl
      rintro (⟨_,habort⟩ | ⟨answer,m',s',hkept,hchange,hafter⟩)
      · rw [hperform] at habort
        simp at habort
      · rw [hperform] at hkept
        injection hkept with hkept
        injection hkept with _ hkept
        subst hkept
        have hself : (m.set m.heap buf (some ⟨data,sizeT (len + n),some top,block.length⟩)).live buf =
            some ⟨data,sizeT (len + n),some top,block.length⟩ := join_set_self (lt_of_join hlive) _
        obtain ⟨bytes,hbytes,howns'⟩ := hafter.owns buf _ hself
        cases hchange with
        | @appendBack _ old' new _ held' _ =>
          have hlast : bytes = old' ++ new := by
            have hset : Sequences.live (s.set buf (some (old' ++ new))) buf = some (old' ++ new) :=
              join_set_self (h.length ▸ lt_of_join hlive) _
            rw [hset] at hbytes
            injection hbytes with hbytes
            exact hbytes.symm
          have holdlen : old'.length = len := by
            rw [held'] at hold
            injection hold with hold
            rw [hold]
            exact length_slice hfits
          have hlength := howns'.length_eq
          have hroom := howns'.room
          rw [hlast,List.length_append,holdlen] at hlength
          simp only [frontLengthOf] at hlength hroom
          rw [ptrdiffMax] at hlimit
          rw [sizeMax] at hwrap
          omega
  | appendFront buf n =>
    obtain ⟨hpos,hn,hsome⟩ := hp
    obtain ⟨pbuf,hlive⟩ := Option.isSome_iff_exists.mp hsome
    obtain ⟨hget,old,hold,howns⟩ := h.get hlive
    rw [Memory.Fits,Memory.demand,hlive] at hf
    cases howns with
    | empty => exact absurd hn (by simpa using hf)
    | block held hreal hlimit hfits =>
      have hperform : m.perform (.appendFront buf n) = .error .outOfBounds := by
        rw [Memory.perform,hget,ok_bind,
          appendFrontBuffer_wrapped held hpos hn hlimit hfits (Nat.not_le.mp hf)]
        rfl
      rintro (⟨_,habort⟩ | ⟨answer,m',s',hkept,_⟩)
      · rw [hperform] at habort
        simp at habort
      · rw [hperform] at hkept
        simp at hkept
  | allocBuffer => exact absurd trivial hf
  | allocBufferWithLength length => exact absurd trivial hf
  | removeFront buf length => exact absurd trivial hf
  | duplicate buf => exact absurd trivial hf
  | free buf => exact absurd trivial hf
  | write buf off bytes => exact absurd trivial hf

end Wrapping

theorem buffers_refine_iff {m : Memory} (h : Reached m) : (∃ s, Represents m s) ∧
    ∀ s, Represents m s →
      (∀ buf pbuf, m.live buf = some pbuf → frontLengthOf pbuf + pbuf.length ≤ pbuf.realLength) ∧
      ∀ op, m.Permitted op → (m.Keeps s op ↔ m.Fits op) := by
  refine ⟨h.represents,fun s hs => ⟨fun buf pbuf hlive => ?_,fun op hp => ⟨fun hk => ?_,hs.keeps hp⟩⟩⟩
  · obtain ⟨bytes,_,howns⟩ := hs.owns buf pbuf hlive
    exact howns.room
  · by_contra hf
    exact hs.unfit hp hf hk

def eightRoom : Memory :=
  ⟨⟨[some [0xa5,0xa5,0xa5,0xa5,0xa5,0xa5,0xa5,0xa5]]⟩,[some ⟨0,4,some 0,8⟩]⟩

theorem reached_eightRoom : Reached eightRoom :=
  @Reached.step _ _ (.appendBack 0 4) (.pointer ⟨0,0⟩)
    (@Reached.step _ _ (.allocBufferWithLength 8) (.buffer 0) .start ⟨by decide,by decide⟩ trivial rfl)
    ⟨by decide,by decide,rfl⟩ (show 0 + 0 + 4 ≤ 18446744073709551615 by decide) rfl

-- 4 + (2^64 - 2) wraps to 2: the call succeeds and the buffer gets shorter.
theorem append_back_shrinks : Reached eightRoom ∧
    eightRoom.Permitted (.appendBack 0 18446744073709551614) ∧
    eightRoom.perform (.appendBack 0 18446744073709551614) =
      .ok (.pointer ⟨0,4⟩,⟨eightRoom.heap,[some ⟨0,2,some 0,8⟩]⟩) ∧
    ∃ s, Represents eightRoom s ∧ ¬ eightRoom.Keeps s (.appendBack 0 18446744073709551614) := by
  have hpermitted : eightRoom.Permitted (.appendBack 0 18446744073709551614) :=
    ⟨by decide,by decide,rfl⟩
  obtain ⟨s,hs⟩ := reached_eightRoom.represents
  exact ⟨reached_eightRoom,hpermitted,rfl,s,hs,hs.unfit hpermitted
    (show ¬ 0 + 4 + 18446744073709551614 ≤ 18446744073709551615 by decide)⟩

theorem buffers_refine_eight : ∃ s, Represents eightRoom s ∧
    eightRoom.Keeps s (.appendBack 0 5) := by
  obtain ⟨⟨s,hs⟩,hall⟩ := buffers_refine_iff reached_eightRoom
  exact ⟨s,hs,((hall s hs).2 (.appendBack 0 5) ⟨by decide,by decide,rfl⟩).mpr
    (show 0 + 4 + 5 ≤ 18446744073709551615 by decide)⟩

end Trema.Buffer
