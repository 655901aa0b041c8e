import Mathlib.Data.List.TakeWhile
import Trema.OpenFlow.ByteOrder
import Trema.PacketinFilter.Filter

namespace Trema.EventForward

open Library
open OpenFlow (Exec abortIf subSize)
open PacketinFilter (CString)
open Table (appendToTail)

inductive EventType where
  | vendor
  | packetIn
  | portStatus
  | stateNotify
deriving DecidableEq

def EventType.code : EventType → UInt8
  | .vendor => 0
  | .packetIn => 1
  | .portStatus => 2
  | .stateNotify => 3

def EventType.ofCode (code : UInt8) : Option EventType :=
  if code = 0 then some .vendor
  else if code = 1 then some .packetIn
  else if code = 2 then some .portStatus
  else if code = 3 then some .stateNotify
  else none

inductive EfiResult where
  | succeeded
  | failed
deriving DecidableEq

def EfiResult.code : EfiResult → UInt8
  | .succeeded => 0
  | .failed => 1

-- An element owns its string, so that equal pointers are one position of the list.
def findListCustom (head : List CString) (name : CString) : Exec (Option Nat) := do
  abortIf (head = [])
  pure (head.findIdx? (· = name))

def deleteElement (head : List CString) (found : Nat) : Exec (Bool × List CString) :=
  if head = [] then .error .outOfBounds
  else if found < head.length then .ok (true,head.eraseIdx found)
  else .ok (false,head)

structure ServiceLists where
  vendor : List CString := []
  packetin : List CString := []
  portstatus : List CString := []
  state : List CString := []
deriving DecidableEq

namespace ServiceLists

variable (s : ServiceLists)

def subject : EventType → List CString
  | .vendor => s.vendor
  | .packetIn => s.packetin
  | .portStatus => s.portstatus
  | .stateNotify => s.state

def withSubject (list : List CString) : EventType → ServiceLists
  | .vendor => { s with vendor := list }
  | .packetIn => { s with packetin := list }
  | .portStatus => { s with portstatus := list }
  | .stateNotify => { s with state := list }

@[simp] theorem subject_withSubject (list : List CString) (t : EventType) :
    (s.withSubject list t).subject t = list := by
  cases t <;> rfl

theorem subject_withSubject_ne (list : List CString) {t u : EventType} (h : u ≠ t) :
    (s.withSubject list t).subject u = s.subject u := by
  cases t <;> cases u <;> first | rfl | exact absurd rfl h

end ServiceLists

def strncpy (m : Bytes) (off : Nat) : Nat → Exec Bytes
  | 0 => pure []
  | n + 1 => do
    let c ← byteAt m off
    if c = 0 then pure []
    else do
      let rest ← strncpy m (off + 1) n
      pure (c :: rest)

def cstring (bs : Bytes) : CString where
  bytes := bs.takeWhile (· ≠ 0)
  unterminated := fun h => by simpa using List.mem_takeWhile_imp h

def stringAt (m : Bytes) (off : Nat) : Exec CString :=
  if 0 ∈ m.drop off then .ok (cstring (m.drop off)) else .error .outOfBounds

section Reading

variable {m bs : Bytes} {off n : Nat}

theorem cstring_bytes (s : CString) : cstring s.bytes = s := by
  have htake : s.bytes.takeWhile (· ≠ 0) = s.bytes := List.takeWhile_eq_self_iff.mpr s.nonzero
  cases s
  simpa [cstring] using htake

theorem cstring_terminated (s : CString) (rest : Bytes) : cstring (s.bytes ++ 0 :: rest) = s := by
  have htake := s.takeWhile_bytes rest
  cases s
  simpa [cstring] using htake

theorem drop_byte (m : Bytes) (off : Nat) (h : off < m.length) : m.drop off = hostByte m off :: m.drop (off + 1) := by
  have hdrop : m.drop off = m[off] :: m.drop (off + 1) := List.drop_eq_getElem_cons h
  have hbyte : hostByte m off = m[off] := by
    rw [hostByte,slice,hdrop]
    exact ofNat_leNat_byte _
  rw [hbyte,hdrop]

theorem strncpy_inside (h : off + n ≤ m.length) : strncpy m off n = .ok ((slice m off n).takeWhile (· ≠ 0)) := by
  induction n generalizing off with
  | zero => simp [strncpy,slice,pure_eq_ok]
  | succ n ih =>
    have hslice : slice m off (n + 1) = hostByte m off :: slice m (off + 1) n := by
      rw [slice,drop_byte m off (by omega)]
      rfl
    rw [strncpy,byteAt_inside (by omega),ok_bind,hslice]
    by_cases hc : hostByte m off = 0
    · simp [hc,pure_eq_ok]
    · rw [if_neg hc,ih (by omega),ok_bind]
      simp [hc,pure_eq_ok]

end Reading

end Trema.EventForward
