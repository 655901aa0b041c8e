import Trema.Messenger.MessageBuffer

namespace Trema.Messenger

open Library

def messengerServiceNameLength : Nat := 32
def messengerRecvBuffer : Nat := 100000
def messengerSendQueueLength : Nat := messengerRecvBuffer * 4
def messengerSendLengthForFlush : Nat := messengerRecvBuffer
def messengerBucketSize : Nat := messengerRecvBuffer
def messengerRecvQueueLength : Nat := messengerRecvBuffer * 2
def messengerRecvQueueReserved : Nat := messengerRecvBuffer

def sizeofMessageHeader : Nat := 8

structure Message where
  messageType : UInt8
  tag : UInt16
  data : Bytes
deriving DecidableEq, Repr

namespace Message

def size (m : Message) : Nat := sizeofMessageHeader + m.data.length

-- The length is computed in a uint32_t.
def length (m : Message) : UInt32 := UInt32.ofNat m.size

def header (m : Message) : Bytes := [0,m.messageType] ++ toNet16 m.tag ++ toNet32 m.length

def encode (m : Message) : Bytes := m.header ++ m.data

theorem size_pos (m : Message) : 8 ≤ m.size := Nat.le_add_right _ _

@[simp] theorem length_header (m : Message) : m.header.length = 8 := by simp [header]

@[simp] theorem length_encode (m : Message) : m.encode.length = m.size := by
  simp [encode,size,sizeofMessageHeader]

theorem toNat_length {m : Message} (h : m.size < 4294967296) : m.length.toNat = m.size :=
  UInt32.toNat_ofNat_of_lt' h

end Message

def frames (ms : List Message) : Bytes := ms.flatMap Message.encode

section Frames

variable {m : Message} {rest : Bytes}

@[simp] theorem frames_nil : frames [] = [] := rfl

@[simp] theorem frames_cons (m : Message) (ms : List Message) :
    frames (m :: ms) = m.encode ++ frames ms := rfl

@[simp] theorem frames_append (ms ms' : List Message) :
    frames (ms ++ ms') = frames ms ++ frames ms' := List.flatMap_append

theorem frames_eq_nil {ms : List Message} (h : (frames ms).length < 8) : ms = [] := by
  cases ms with
  | nil => rfl
  | cons m ms =>
    have := m.size_pos
    rw [frames_cons,List.length_append,Message.length_encode] at h
    omega

theorem read_type (m : Message) (rest : Bytes) : hostByte (m.encode ++ rest) 1 = m.messageType := by
  simp [Message.encode,Message.header,hostByte,slice,leNat]

theorem read_tag (m : Message) (rest : Bytes) : be16 (m.encode ++ rest) 2 = m.tag := by
  rw [Message.encode,Message.header,be16,List.append_assoc,List.append_assoc,List.append_assoc,
    slice_append_right _ (by simp),slice_append_left (by simp)]
  simp [slice_whole]

theorem read_length (m : Message) (rest : Bytes) : be32 (m.encode ++ rest) 4 = m.length := by
  rw [Message.encode,Message.header,be32,List.append_assoc,List.append_assoc,
    slice_append_right _ (by simp),slice_append_left (by simp)]
  simp [slice_whole]

theorem read_value (m : Message) (rest : Bytes) : slice (m.encode ++ rest) 8 m.data.length = m.data := by
  rw [Message.encode,List.append_assoc,slice_append_right _ (by simp),slice_append_left (by simp)]
  simp [slice_whole]

end Frames

end Trema.Messenger
