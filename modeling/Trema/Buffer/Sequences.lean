import Trema.Buffer.Ownership
import Trema.Library.Slots

namespace Trema.Buffer

open Library
open Utility (ptrdiffMax sizeMax)

structure Memory where
  heap : Heap
  buffers : List (Option PrivateBuffer)
deriving DecidableEq, Repr

inductive Op where
  | allocBuffer
  | allocBufferWithLength (length : Nat)
  | appendFront (buf length : Nat)
  | removeFront (buf length : Nat)
  | appendBack (buf length : Nat)
  | duplicate (buf : Nat)
  | free (buf : Nat)
  -- The caller stores bytes in the buffer.
  | write (buf off : Nat) (bytes : Bytes)
deriving DecidableEq, Repr

inductive Answer where
  | nothing
  | buffer (buf : Nat)
  | pointer (p : Pointer)
deriving DecidableEq, Repr

namespace Memory

def live (m : Memory) (buf : Nat) : Option PrivateBuffer := m.buffers[buf]?.join

def get (m : Memory) (buf : Nat) : Exec PrivateBuffer :=
  match m.live buf with
  | none => .error .outOfBounds
  | some pbuf => .ok pbuf

def set (m : Memory) (heap : Heap) (buf : Nat) (pbuf : Option PrivateBuffer) : Memory :=
  ⟨heap,m.buffers.set buf pbuf⟩

def push (m : Memory) (heap : Heap) (pbuf : PrivateBuffer) : Answer × Memory :=
  (.buffer m.buffers.length,⟨heap,m.buffers ++ [some pbuf]⟩)

def perform (m : Memory) : Op → Exec (Answer × Memory)
  | .allocBuffer => .ok (m.push m.heap allocBuffer)
  | .allocBufferWithLength length => do
    let (heap,pbuf) ← allocBufferWithLength m.heap length
    pure (m.push heap pbuf)
  | .appendFront buf length => do
    let pbuf ← m.get buf
    let (p,heap,pbuf) ← appendFrontBuffer m.heap pbuf length
    pure (.pointer p,m.set heap buf (some pbuf))
  | .removeFront buf length => do
    let pbuf ← m.get buf
    let pbuf ← removeFrontBuffer pbuf length
    let top ← dereference pbuf.top
    pure (.pointer ⟨top,pbuf.data⟩,m.set m.heap buf (some pbuf))
  | .appendBack buf length => do
    let pbuf ← m.get buf
    let (p,heap,pbuf) ← appendBackBuffer m.heap pbuf length
    pure (.pointer p,m.set heap buf (some pbuf))
  | .duplicate buf => do
    let pbuf ← m.get buf
    let (heap,copy) ← duplicateBuffer m.heap pbuf
    pure (m.push heap copy)
  | .free buf => do
    let pbuf ← m.get buf
    let heap ← freeBuffer m.heap pbuf
    pure (.nothing,m.set heap buf none)
  | .write buf off bytes => do
    let pbuf ← m.get buf
    let top ← dereference pbuf.top
    let heap ← m.heap.store ⟨top,pbuf.data + off⟩ bytes
    pure (.nothing,{ m with heap := heap })

end Memory

-- What the calls are for: byte sequences, each under its own name.
abbrev Sequences := List (Option Bytes)

def Sequences.live (s : Sequences) (buf : Nat) : Option Bytes := s[buf]?.join

-- The place of the i-th byte of a buffer.
def Memory.place (m : Memory) (buf i : Nat) : Option Pointer :=
  match m.live buf with
  | none => none
  | some pbuf => pbuf.top.map fun top => ⟨top,pbuf.data + i⟩

inductive Change (m' : Memory) (s : Sequences) : Op → Answer → Sequences → Prop
  | allocBuffer : Change m' s .allocBuffer (.buffer s.length) (s ++ [some []])
  | allocBufferWithLength {length : Nat} :
      Change m' s (.allocBufferWithLength length) (.buffer s.length) (s ++ [some []])
  | appendFront {buf : Nat} {old new : Bytes} {p : Pointer} (held : s.live buf = some old)
      (front : m'.place buf 0 = some p) :
      Change m' s (.appendFront buf new.length) (.pointer p) (s.set buf (some (new ++ old)))
  | removeFront {buf length : Nat} {old : Bytes} {p : Pointer} (held : s.live buf = some old)
      (front : m'.place buf 0 = some p) :
      Change m' s (.removeFront buf length) (.pointer p) (s.set buf (some (old.drop length)))
  | appendBack {buf : Nat} {old new : Bytes} {p : Pointer} (held : s.live buf = some old)
      (back : m'.place buf old.length = some p) :
      Change m' s (.appendBack buf new.length) (.pointer p) (s.set buf (some (old ++ new)))
  | duplicate {buf : Nat} {old : Bytes} (held : s.live buf = some old) :
      Change m' s (.duplicate buf) (.buffer s.length) (s ++ [some old])
  | free {buf : Nat} : Change m' s (.free buf) .nothing (s.set buf none)
  | write {buf off : Nat} {old bytes : Bytes} (held : s.live buf = some old) :
      Change m' s (.write buf off bytes) .nothing (s.set buf (some (overwrite old off bytes)))

structure Represents (m : Memory) (s : Sequences) : Prop where
  length : m.buffers.length = s.length
  owns : ∀ buf pbuf, m.live buf = some pbuf → ∃ bytes, s.live buf = some bytes ∧ Owns m.heap pbuf bytes
  live : ∀ buf bytes, s.live buf = some bytes → ∃ pbuf, m.live buf = some pbuf
  apart : ∀ buf buf' p q, buf ≠ buf' → m.live buf = some p → m.live buf' = some q → Apart p q

section Representing

variable {m : Memory} {s : Sequences} {buf : Nat} {pbuf pbuf' : PrivateBuffer} {heap' : Heap}
  {bytes : Bytes}

theorem Represents.get (h : Represents m s) (hlive : m.live buf = some pbuf) :
    m.get buf = .ok pbuf ∧ ∃ bytes, s.live buf = some bytes ∧ Owns m.heap pbuf bytes := by
  refine ⟨?_,h.owns buf pbuf hlive⟩
  rw [Memory.get,hlive]

theorem Represents.set (h : Represents m s) (hlive : m.live buf = some pbuf)
    (howns : Owns heap' pbuf' bytes) (hspares : Spares m.heap pbuf heap' pbuf') :
    Represents (m.set heap' buf (some pbuf')) (s.set buf (some bytes)) := by
  have hlt : buf < m.buffers.length := lt_of_join hlive
  have hlt' : buf < s.length := h.length ▸ hlt
  have hself : (m.set heap' buf (some pbuf')).live buf = some pbuf' := join_set_self hlt _
  have hother : ∀ c, c ≠ buf → (m.set heap' buf (some pbuf')).live c = m.live c :=
    fun c hc => join_set_ne hc _
  have hkept : ∀ c p, c ≠ buf → m.live c = some p → Apart p pbuf :=
    fun c p hc hp => h.apart c buf p pbuf hc hp hlive
  refine ⟨by simp [Memory.set,h.length],fun c p hp => ?_,fun c b hb => ?_,fun c d p q hcd hp hq => ?_⟩
  · by_cases hc : c = buf
    · subst hc
      rw [hself] at hp
      injection hp with hp
      exact ⟨bytes,join_set_self hlt' _,hp ▸ howns⟩
    · rw [hother c hc] at hp
      obtain ⟨old,hold,ho⟩ := h.owns c p hp
      exact ⟨old,(join_set_ne hc _).trans hold,(ho.spared (hkept c p hc hp) hspares).1⟩
  · by_cases hc : c = buf
    · exact ⟨pbuf',hc ▸ hself⟩
    · obtain ⟨p,hp⟩ := h.live c b ((join_set_ne hc _).symm.trans hb)
      exact ⟨p,(hother c hc).trans hp⟩
  · by_cases hc : c = buf
    · subst hc
      rw [hself] at hp
      rw [hother d hcd.symm] at hq
      injection hp with hp
      obtain ⟨old,_,ho⟩ := h.owns d q hq
      exact hp ▸ (ho.spared (hkept d q hcd.symm hq) hspares).2.symm
    · rw [hother c hc] at hp
      obtain ⟨old,_,ho⟩ := h.owns c p hp
      by_cases hd : d = buf
      · subst hd
        rw [hself] at hq
        injection hq with hq
        exact hq ▸ (ho.spared (hkept c p hc hp) hspares).2
      · exact h.apart c d p q hcd hp ((hother d hd).symm.trans hq)

theorem Represents.push (h : Represents m s) (howns : Owns heap' pbuf' bytes)
    (hspares : Spares m.heap allocPrivateBuffer heap' pbuf') :
    Represents (m.push heap' pbuf').2 (s ++ [some bytes]) := by
  have hnew : (m.push heap' pbuf').2.live m.buffers.length = some pbuf' := join_append_last _
  have hold : ∀ c, c < m.buffers.length → (m.push heap' pbuf').2.live c = m.live c :=
    fun c hc => join_append _ hc
  have hkept : ∀ c p, m.live c = some p → Apart p allocPrivateBuffer :=
    fun c p _ d _ hd => by simp [allocPrivateBuffer] at hd
  refine ⟨by simp [Memory.push,h.length],fun c p hp => ?_,fun c b hb => ?_,fun c d p q hcd hp hq => ?_⟩
  · rcases lt_or_eq_of_append hp with hc | hc
    · rw [hold c hc] at hp
      obtain ⟨old,hs,ho⟩ := h.owns c p hp
      exact ⟨old,(join_append _ (h.length ▸ hc)).trans hs,(ho.spared (hkept c p hp) hspares).1⟩
    · subst hc
      rw [hnew] at hp
      injection hp with hp
      exact ⟨bytes,h.length ▸ join_append_last _,hp ▸ howns⟩
  · rcases lt_or_eq_of_append hb with hc | hc
    · obtain ⟨p,hp⟩ := h.live c b ((join_append _ hc).symm.trans hb)
      exact ⟨p,(hold c (h.length ▸ hc)).trans hp⟩
    · exact ⟨pbuf',hc ▸ h.length ▸ hnew⟩
  · rcases lt_or_eq_of_append hp with hc | hc <;> rcases lt_or_eq_of_append hq with hd | hd
    · exact h.apart c d p q hcd ((hold c hc).symm.trans hp) ((hold d hd).symm.trans hq)
    · subst hd
      rw [hold c hc] at hp
      rw [hnew] at hq
      injection hq with hq
      obtain ⟨old,_,ho⟩ := h.owns c p hp
      exact hq ▸ (ho.spared (hkept c p hp) hspares).2
    · subst hc
      rw [hold d hd] at hq
      rw [hnew] at hp
      injection hp with hp
      obtain ⟨old,_,ho⟩ := h.owns d q hq
      exact hp ▸ (ho.spared (hkept d q hq) hspares).2.symm
    · exact absurd (hc.trans hd.symm) hcd

theorem Represents.drop (h : Represents m s) (hlive : m.live buf = some pbuf)
    (hspares : Spares m.heap pbuf heap' allocPrivateBuffer) :
    Represents (m.set heap' buf none) (s.set buf none) := by
  have hlt : buf < m.buffers.length := lt_of_join hlive
  have hnone : (m.set heap' buf none).live buf = none := join_set_self hlt _
  have hnone' : Sequences.live (s.set buf none) buf = none := join_set_self (h.length ▸ hlt) _
  have hne : ∀ c p, (m.set heap' buf none).live c = some p → c ≠ buf ∧ m.live c = some p := by
    intro c p hp
    have hc : c ≠ buf := by
      rintro rfl
      rw [hnone] at hp
      simp at hp
    exact ⟨hc,(join_set_ne hc _).symm.trans hp⟩
  refine ⟨by simp [Memory.set,h.length],fun c p hp => ?_,fun c b hb => ?_,fun c d p q hcd hp hq => ?_⟩
  · obtain ⟨hc,hp⟩ := hne c p hp
    obtain ⟨old,hs,ho⟩ := h.owns c p hp
    exact ⟨old,(join_set_ne hc _).trans hs,(ho.spared (h.apart c buf p pbuf hc hp hlive) hspares).1⟩
  · have hc : c ≠ buf := by
      rintro rfl
      rw [hnone'] at hb
      simp at hb
    obtain ⟨p,hp⟩ := h.live c b ((join_set_ne hc _).symm.trans hb)
    exact ⟨p,(join_set_ne hc _).trans hp⟩
  · exact h.apart c d p q hcd (hne c p hp).2 (hne d q hq).2

end Representing

end Trema.Buffer
