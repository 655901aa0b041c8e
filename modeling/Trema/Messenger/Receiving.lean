import Trema.Messenger.ReceiveQueue
import Trema.Messenger.Packets

namespace Trema.Messenger

open Library
open OpenFlow (subSize subSize_of_le)

section Pulling

variable {buf : MessageBuffer} {m : Message} {rest : List Message}

def Message.pulled (m : Message) : Pulled := ⟨m.messageType,m.tag,m.data,m.data.length⟩

theorem pull_frames (h : buf.contents = frames (m :: rest)) (hm : m.size ≤ messengerRecvBuffer) :
    ∃ buf', pullFromRecvQueue buf = .ok (some (m.pulled,buf')) ∧ buf'.contents = frames rest ∧
      buf'.size = buf.size := by
  have hpos := m.size_pos
  have hsize : m.size = 8 + m.data.length := rfl
  have hlen := buf.length_contents
  rw [h,frames_cons,List.length_append,Message.length_encode] at hlen
  have hrecv : messengerRecvBuffer = 100000 := rfl
  have hwire : m.length.toNat = m.size := Message.toNat_length (by omega)
  have hlength : be32 buf.buffer (buf.headOffset + 4) = m.length := by
    rw [read_contents (by omega),h,frames_cons,read_length]
  have htype : hostByte buf.buffer (buf.headOffset + 1) = m.messageType := by
    rw [hostByte,buf.slice_contents (by omega),← hostByte,h,frames_cons,read_type]
  have htag : be16 buf.buffer (buf.headOffset + 2) = m.tag := by
    rw [be16,buf.slice_contents (by omega),← be16,h,frames_cons,read_tag]
  have hdata : slice buf.buffer (buf.headOffset + 8) m.data.length = m.data := by
    rw [buf.slice_contents (by omega),h,frames_cons,read_value]
  have hsub : subSize m.size sizeofMessageHeader = m.data.length := by
    rw [sizeofMessageHeader,subSize_of_le hpos,hsize,Nat.add_sub_cancel_left]
  rw [pullFromRecvQueue,if_neg (by rw [sizeofMessageHeader]; omega)]
  simp only [hlength,hwire]
  rw [if_neg (by omega),if_neg (by rw [messengerRecvQueueLength]; omega),if_neg (by omega),hsub,
    Nat.min_eq_left (by omega),hdata,htype,htag]
  refine ⟨_,rfl,?_,size_truncate buf _⟩
  rw [contents_truncate,h,frames_cons,← m.length_encode,List.drop_left]

theorem pull_empty (h : buf.contents = []) : pullFromRecvQueue buf = .ok none := by
  have hlen := buf.length_contents
  rw [h] at hlen
  rw [pullFromRecvQueue,if_pos (by rw [← hlen]; decide)]

end Pulling

section Invocation

variable {υ : Type}

def functionsOf (callbacks : List ReceiveQueueCallback) (messageType : MessageType) : List Nat :=
  (callbacks.filter fun cb => cb.messageType = messageType).map (·.function)

-- A reply is only passed on while its request has a context.
structure Invokes (callbacks : List ReceiveQueueCallback) (c : Contexts υ) (m : Message)
    (calls : List (Call υ)) : Prop where
  notify : m.messageType = MessageType.notify.code →
    calls = (functionsOf callbacks .notify).map fun f => .received f m.tag m.data m.data.length
  request : m.messageType = MessageType.request.code → 8 + (be16 m.data 4).toNat ≤ m.data.length →
    calls = (functionsOf callbacks .request).map fun f =>
      .requested f (be32 m.data 0) (slice m.data 8 (be16 m.data 4).toNat) m.tag
        (m.data.drop (8 + (be16 m.data 4).toNat)) (m.data.length - (8 + (be16 m.data 4).toNat))
  reply : m.messageType = MessageType.reply.code → 8 ≤ m.data.length →
    calls = (getContext c (be32 m.data 0)).elim [] fun context =>
      (functionsOf callbacks .reply).map fun f =>
        .replied f m.tag (m.data.drop 8) (m.data.length - 8) context.userData
  other : (∀ t : MessageType, m.messageType ≠ t.code) → calls = []

variable {react : Call υ → List υ} {m : Message} {callbacks : List ReceiveQueueCallback}

theorem code_injective {t t' : MessageType} (h : t.code = t'.code) : t = t' := by
  cases t <;> cases t' <;> first | rfl | exact absurd h (by decide)

theorem functionsOf_cons (cb : ReceiveQueueCallback) (t : MessageType) :
    functionsOf (cb :: callbacks) t =
      if cb.messageType = t then cb.function :: functionsOf callbacks t else functionsOf callbacks t := by
  rw [functionsOf,List.filter_cons]
  simp only [decide_eq_true_eq]
  split <;> rfl

theorem call_none {m : Pulled} (h : ∀ cb ∈ callbacks, cb.messageType.code ≠ m.messageType) (data : Bytes)
    (c : Contexts υ) : callMessageCallbacks react m callbacks data c = ([],c) := by
  induction callbacks with
  | nil => rfl
  | cons cb callbacks ih =>
    rw [callMessageCallbacks,if_pos (h cb (by simp)),ih fun a ha => h a (by simp [ha])]

theorem code_ne_of_functionsOf {t : MessageType} {code : UInt8} (ht : code = t.code)
    (h : functionsOf callbacks t = []) : ∀ cb ∈ callbacks, cb.messageType.code ≠ code := by
  intro cb hcb hcode
  rw [functionsOf,List.map_eq_nil_iff,List.filter_eq_nil_iff] at h
  exact h cb hcb (by simpa using code_injective (hcode.trans ht))

theorem call_notify (hm : m.messageType = MessageType.notify.code) (data : Bytes) (c : Contexts υ) :
    (callMessageCallbacks react m.pulled callbacks data c).1 =
      (functionsOf callbacks .notify).map fun f => .received f m.tag data m.data.length := by
  induction callbacks generalizing c with
  | nil => rfl
  | cons cb callbacks ih =>
    rw [callMessageCallbacks,functionsOf_cons]
    by_cases hcb : cb.messageType = .notify
    · rw [if_pos hcb,if_neg (by rw [hcb]; simp [Message.pulled,hm])]
      simp only [hcb,List.map_cons]
      rw [ih]
      rfl
    · rw [if_neg hcb,if_pos,ih]
      intro hcode
      exact hcb (code_injective (hcode.trans hm))

theorem slice_handleToHost {data : Bytes} (h : 8 ≤ data.length) {p : Nat} (hp : 8 ≤ p) (n : Nat) :
    slice (handleToHost data) p n = slice data p n := by
  have hfirst : (overwrite data 0 (toHost32 (be32 data 0))).length = data.length :=
    length_overwrite (by rw [length_toHost32]; omega)
  rw [handleToHost,slice_overwrite_after n (by rw [length_toHost16]; omega)
    (by rw [length_toHost16,hfirst]; omega),
    slice_overwrite_after n (by rw [length_toHost32]; omega) (by rw [length_toHost32]; omega)]

theorem slice_rest (data : Bytes) (p : Nat) : slice data p (data.length - p) = data.drop p := by
  rw [slice,List.take_of_length_le (by rw [List.length_drop])]

-- There is one function at most, so the handle is converted once.
theorem call_request (hm : m.messageType = MessageType.request.code)
    (hdata : 8 + (be16 m.data 4).toNat ≤ m.data.length)
    (hone : (functionsOf callbacks .request).length ≤ 1) (c : Contexts υ) :
    (callMessageCallbacks react m.pulled callbacks m.data c).1 =
      (functionsOf callbacks .request).map fun f =>
        .requested f (be32 m.data 0) (slice m.data 8 (be16 m.data 4).toNat) m.tag
          (m.data.drop (8 + (be16 m.data 4).toNat)) (m.data.length - (8 + (be16 m.data 4).toNat)) := by
  induction callbacks generalizing c with
  | nil => rfl
  | cons cb callbacks ih =>
    rw [callMessageCallbacks]
    rw [functionsOf_cons] at hone ⊢
    by_cases hcb : cb.messageType = .request
    · rw [if_pos hcb] at hone ⊢
      have hnil : functionsOf callbacks .request = [] := by
        rw [List.length_cons] at hone
        exact List.length_eq_zero_iff.mp (by omega)
      have hlen : subSize m.pulled.len (sizeofMessengerContextHandle + (be16 m.data 4).toNat) =
          m.data.length - (8 + (be16 m.data 4).toNat) := subSize_of_le hdata
      rw [if_neg (by rw [hcb]; simp [Message.pulled,hm])]
      simp only [hcb]
      rw [call_none (code_ne_of_functionsOf hm hnil),hnil,hlen]
      simp only [List.map_cons,List.map_nil,sizeofMessengerContextHandle]
      rw [slice_handleToHost (by omega) (by omega),slice_handleToHost (by omega) (by omega),slice_rest]
      rfl
    · rw [if_neg hcb] at hone ⊢
      rw [if_pos,ih hone]
      intro hcode
      exact hcb (code_injective (hcode.trans hm))

theorem call_reply (hm : m.messageType = MessageType.reply.code) (hdata : 8 ≤ m.data.length)
    (hone : (functionsOf callbacks .reply).length ≤ 1) (c : Contexts υ) :
    (callMessageCallbacks react m.pulled callbacks m.data c).1 =
      (getContext c (be32 m.data 0)).elim [] fun context =>
        (functionsOf callbacks .reply).map fun f =>
          .replied f m.tag (m.data.drop 8) (m.data.length - 8) context.userData := by
  induction callbacks generalizing c with
  | nil => cases getContext c (be32 m.data 0) <;> rfl
  | cons cb callbacks ih =>
    rw [callMessageCallbacks]
    rw [functionsOf_cons] at hone ⊢
    by_cases hcb : cb.messageType = .reply
    · rw [if_pos hcb] at hone ⊢
      have hnil : functionsOf callbacks .reply = [] := by
        rw [List.length_cons] at hone
        exact List.length_eq_zero_iff.mp (by omega)
      have hnone : ∀ cb ∈ callbacks, cb.messageType.code ≠ m.pulled.messageType :=
        code_ne_of_functionsOf hm hnil
      have hlen : subSize m.pulled.len sizeofMessengerContextHandle = m.data.length - 8 :=
        subSize_of_le hdata
      rw [if_neg (by rw [hcb]; simp [Message.pulled,hm])]
      simp only [hcb]
      cases hc : getContext c (be32 m.data 0) with
      | none =>
        simp only
        rw [call_none hnone]
        rfl
      | some context =>
        simp only
        rw [call_none hnone,hnil,hlen]
        simp only [sizeofMessengerContextHandle]
        rw [slice_handleToHost hdata (by omega),slice_rest]
        rfl
    · rw [if_neg hcb] at hone ⊢
      rw [if_pos,ih hone]
      intro hcode
      exact hcb (code_injective (hcode.trans hm))

theorem call_invokes (hrequest : (functionsOf callbacks .request).length ≤ 1)
    (hreply : (functionsOf callbacks .reply).length ≤ 1) (c : Contexts υ) :
    Invokes callbacks c m (callMessageCallbacks react m.pulled callbacks m.data c).1 := by
  refine ⟨fun hm => call_notify hm _ c,fun hm hdata => call_request hm hdata hrequest c,
    fun hm hdata => call_reply hm hdata hreply c,?_⟩
  intro hm
  rw [call_none]
  intro cb _ hcode
  exact hm cb.messageType hcode.symm

end Invocation

end Trema.Messenger
