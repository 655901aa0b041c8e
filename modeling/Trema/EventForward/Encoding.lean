import Trema.EventForward.ServiceList
import Trema.Messenger.Message
import Trema.SecureChannel.Appending

namespace Trema.EventForward

open Library
open Messenger (messengerServiceNameLength)
open OpenFlow (Exec)
open PacketinFilter (CString)
open SecureChannel

-- The header is found again after each append, as the appended bytes less the running offset.
structure Encoder where
  buf : Buffer
  head : Nat
  headOffset : Nat
  nServices : UInt32

section Encoders

variable (heap : Nat → UInt8)

def appendServiceName (e : Encoder) (name : CString) : Exec Encoder := do
  let (dst,buf) ← appendBackBuffer heap e.buf (name.bytes.length + 1)
  let buf ← buf.put dst (name.bytes ++ [0])
  pure ⟨buf,dst - e.headOffset,e.headOffset + name.bytes.length + 1,e.nServices + 1⟩

def createEventForwardOperation (buf : Buffer) (type result : UInt8) (serviceList : List CString) : Exec Buffer := do
  let (head,buf) ← appendBackBuffer heap buf 8
  let buf ← buf.put head (List.replicate 8 0)
  let buf ← buf.put head [type]
  let buf ← buf.put (head + 1) [result]
  let e ← serviceList.foldlM (appendServiceName heap) ⟨buf,head,8,0⟩
  e.buf.put (e.head + 4) (toNet32 e.nServices)

-- The request has padding where the reply has the result.
def createEventForwardOperationRequest (buf : Option Buffer) (type : UInt8) (serviceList : List CString) : Exec Buffer := do
  let buf ← match buf with
    | none => allocBufferWithLength heap (8 + messengerServiceNameLength)
    | some buf => pure buf
  createEventForwardOperation heap buf type 0 serviceList

def createEventForwardOperationReply (type result : UInt8) (serviceList : List CString) : Exec Buffer := do
  let buf ← allocBufferWithLength heap (8 + messengerServiceNameLength)
  createEventForwardOperation heap buf type result serviceList

end Encoders

def joined (names : List CString) : Bytes := names.flatMap fun s => s.bytes ++ [0]

def operationImage (type result : UInt8) (names : List CString) : Bytes :=
  [type,result,0,0] ++ toNet32 (UInt32.ofNat names.length) ++ joined names

section Images

variable {heap : Nat → UInt8} {b : Buffer} {type result : UInt8} {names : List CString}

structure Encoder.Holds (b : Buffer) (done : Bytes) (n : Nat) (e : Encoder) : Prop where
  extended : Extended b done e.buf
  head : e.head = b.data + b.length
  offset : e.headOffset = done.length
  count : e.nServices = UInt32.ofNat n

theorem Encoder.Holds.append (heap : Nat → UInt8) {done : Bytes} {n : Nat} {e : Encoder} (hb : b.Inside)
    (h : e.Holds b done n) (name : CString) :
    ∃ e', appendServiceName heap e name = .ok e' ∧ e'.Holds b (done ++ (name.bytes ++ [0])) (n + 1) := by
  have hne : name.bytes ++ [0] ≠ [] := by simp
  obtain ⟨place,b',b'',happend,hplace,hput,hextended⟩ := append_put heap h.extended.inside hne
  have hlen : (name.bytes ++ [0]).length = name.bytes.length + 1 := by simp
  rw [hlen] at happend
  refine ⟨⟨b'',place - e.headOffset,e.headOffset + name.bytes.length + 1,e.nServices + 1⟩,?_,
    ⟨h.extended.trans hextended,?_,?_,?_⟩⟩
  · rw [appendServiceName,happend,ok_bind]
    simp only [hput,ok_bind]
    rfl
  · have hold := congrArg List.length h.extended.bytes
    rw [h.extended.inside.length_bytes,List.length_append,hb.length_bytes] at hold
    simp only
    rw [hplace,h.offset,h.extended.data,hold]
    omega
  · simp only [List.length_append,h.offset]
    simp
    omega
  · simp only [h.count]
    simp

theorem Encoder.Holds.appendAll (heap : Nat → UInt8) {done : Bytes} {n : Nat} {e : Encoder} (hb : b.Inside)
    (h : e.Holds b done n) (names : List CString) : ∃ e', names.foldlM (appendServiceName heap) e = .ok e' ∧
      e'.Holds b (done ++ joined names) (n + names.length) := by
  induction names generalizing done n e with
  | nil => exact ⟨e,rfl,by simpa [joined] using h⟩
  | cons name names ih =>
    obtain ⟨e₁,hstep,h₁⟩ := h.append heap hb name
    obtain ⟨e₂,hrest,h₂⟩ := ih h₁
    refine ⟨e₂,?_,?_⟩
    · rw [List.foldlM_cons,hstep]
      exact hrest
    · have hjoined : joined (name :: names) = name.bytes ++ [0] ++ joined names := by simp [joined]
      rw [hjoined,← List.append_assoc,List.length_cons,Nat.add_comm names.length,← Nat.add_assoc]
      exact h₂

theorem createEventForwardOperation_spec (heap : Nat → UInt8) (type result : UInt8) (names : List CString)
    (hb : b.Inside) : ∃ b', createEventForwardOperation heap b type result names = .ok b' ∧ b'.Inside ∧
      b'.bytes = b.bytes ++ operationImage type result names := by
  obtain ⟨place,b₁,b₂,happend,hplace,hput,h₂⟩ := @append_put b (List.replicate 8 0) heap hb (by simp)
  obtain ⟨b₃,htype,h₃⟩ := Extended.rewrite [] [0] (List.replicate 7 0) [type] hb h₂ rfl
  obtain ⟨b₄,hresult,h₄⟩ := Extended.rewrite [type] [0] (List.replicate 6 0) [result] hb h₃ rfl
  have hstart : Encoder.Holds b ([type] ++ [result] ++ List.replicate 6 0) 0 ⟨b₄,place,8,0⟩ := ⟨h₄,hplace,rfl,rfl⟩
  obtain ⟨e,hnames,he⟩ := hstart.appendAll heap hb names
  obtain ⟨b₅,hcount,h₅⟩ := Extended.rewrite [type,result,0,0] [0,0,0,0] (joined names)
    (toNet32 e.nServices) hb he.extended (by simp)
  refine ⟨b₅,?_,h₅.inside,?_⟩
  · simp only [List.length_replicate] at happend
    rw [createEventForwardOperation,happend,ok_bind]
    simp only [hput,ok_bind]
    rw [hplace] at hnames ⊢
    simp only [List.length_nil,Nat.add_zero] at htype
    rw [htype,ok_bind]
    simp only [List.length_singleton] at hresult
    rw [hresult,ok_bind,hnames,ok_bind,he.head]
    exact hcount
  · rw [h₅.bytes,operationImage,he.count,Nat.zero_add]

theorem createEventForwardOperationRequest_null (heap : Nat → UInt8) (type : UInt8) (names : List CString) :
    ∃ b', createEventForwardOperationRequest heap none type names = .ok b' ∧
    b'.Inside ∧ b'.bytes = operationImage type 0 names := by
  obtain ⟨b',hcreate,hinside,hbytes⟩ := createEventForwardOperation_spec heap type 0 names
    (inside_alloc heap (8 + messengerServiceNameLength))
  refine ⟨b',?_,hinside,hbytes⟩
  rw [createEventForwardOperationRequest]
  simp only [allocBufferWithLength_ok heap (show 0 < 8 + messengerServiceNameLength by decide),ok_bind]
  exact hcreate

theorem createEventForwardOperationRequest_after (heap : Nat → UInt8) (type : UInt8) (names : List CString)
    (hb : b.Inside) : ∃ b', createEventForwardOperationRequest heap (some b) type names = .ok b' ∧ b'.Inside ∧
      b'.bytes = b.bytes ++ operationImage type 0 names :=
  createEventForwardOperation_spec heap type 0 names hb

theorem createEventForwardOperationReply_spec (heap : Nat → UInt8) (type result : UInt8) (names : List CString) :
    ∃ b', createEventForwardOperationReply heap type result names = .ok b' ∧
    b'.Inside ∧ b'.bytes = operationImage type result names := by
  obtain ⟨b',hcreate,hinside,hbytes⟩ := createEventForwardOperation_spec heap type result names
    (inside_alloc heap (8 + messengerServiceNameLength))
  refine ⟨b',?_,hinside,hbytes⟩
  rw [createEventForwardOperationReply,
    allocBufferWithLength_ok heap (show 0 < 8 + messengerServiceNameLength by decide),ok_bind]
  exact hcreate

end Images

end Trema.EventForward
