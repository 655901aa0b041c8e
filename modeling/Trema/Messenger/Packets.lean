import Trema.Messenger.SendQueue

namespace Trema.Messenger

open Library
open OpenFlow (subSize subSize_of_le)

def Message.Sendable (m : Message) : Prop := m.size < messengerRecvQueueLength

-- The length field holds the size of the message.
def Message.Framed (m : Message) : Prop := m.size < 4294967296

theorem Message.Sendable.framed {m : Message} (h : m.Sendable) : m.Framed :=
  Nat.lt_trans h (by decide)

-- `Explained accepted outputs delivered pending`: the outputs are what the queue made of the accepted
-- messages; the delivered ones went out in them, the pending ones are still to come.
inductive Explained : List Message → List Output → List Message → List Message → Prop
  | done (ms : List Message) : Explained ms [] [] ms
  | sent {ms rest delivered left : List Message} {outputs : List Output} (hms : ms ≠ [])
      (h : Explained rest outputs delivered left) :
      Explained (ms ++ rest) (.packet (frames ms) .sent :: outputs) (ms ++ delivered) left
  | refused {ms rest delivered left : List Message} {outputs : List Output} {result : SendResult}
      (hms : ms ≠ []) (hresult : result = .again ∨ result = .failed)
      (h : Explained (ms ++ rest) outputs delivered left) :
      Explained (ms ++ rest) (.packet (frames ms) result :: outputs) delivered left
  | dropped {ms rest later delivered left : List Message} {outputs : List Output} (hms : ms ≠ [])
      (h : Explained later outputs delivered left) :
      Explained (ms ++ rest ++ later)
        (.packet (frames ms) .tooBig :: .dropped (frames (ms ++ rest)) :: outputs) delivered left
  | cleared {ms later delivered left : List Message} {outputs : List Output}
      (h : Explained later outputs delivered left) :
      Explained (ms ++ later) (.cleared (frames ms) :: outputs) delivered left

namespace Explained

variable {a b c d d' : List Message} {outputs outputs' : List Output}

theorem trans (h : Explained a outputs d b) (h' : Explained b outputs' d' c) :
    Explained a (outputs ++ outputs') (d ++ d') c := by
  induction h with
  | done => exact h'
  | sent hms _ ih =>
    rw [List.append_assoc]
    exact .sent hms (ih h')
  | refused hms hresult _ ih => exact .refused hms hresult (ih h')
  | dropped hms _ ih => exact .dropped hms (ih h')
  | cleared _ ih => exact .cleared (ih h')

theorem extend (h : Explained a outputs d b) (ms : List Message) :
    Explained (a ++ ms) outputs d (b ++ ms) := by
  induction h with
  | done => exact .done _
  | sent hms _ ih =>
    rw [List.append_assoc]
    exact .sent hms ih
  | refused hms hresult _ ih =>
    rw [List.append_assoc] at ih ⊢
    exact .refused hms hresult ih
  | dropped hms _ ih =>
    rw [List.append_assoc]
    exact .dropped hms ih
  | cleared _ ih =>
    rw [List.append_assoc]
    exact .cleared ih

theorem pending_suffix (h : Explained a outputs d b) : ∃ gone, a = gone ++ b := by
  induction h with
  | done => exact ⟨[],rfl⟩
  | @sent ms rest delivered left outputs _ _ ih =>
    obtain ⟨gone,rfl⟩ := ih
    exact ⟨ms ++ gone,(List.append_assoc _ _ _).symm⟩
  | refused _ _ _ ih => exact ih
  | @dropped ms rest later delivered left outputs _ _ ih =>
    obtain ⟨gone,rfl⟩ := ih
    exact ⟨ms ++ rest ++ gone,(List.append_assoc _ _ _).symm⟩
  | @cleared ms later delivered left outputs _ ih =>
    obtain ⟨gone,rfl⟩ := ih
    exact ⟨ms ++ gone,(List.append_assoc _ _ _).symm⟩

end Explained

section Cutting

variable {buf : MessageBuffer}

theorem read_contents {i : Nat} (h : i + 4 ≤ buf.dataLength) :
    be32 buf.buffer (buf.headOffset + i) = be32 buf.contents i := by
  rw [be32,be32,buf.slice_contents h]

theorem read_message_length {done rest : List Message} {m : Message}
    (h : buf.contents = frames (done ++ m :: rest)) :
    be32 buf.buffer (buf.headOffset + (frames done).length + 4) = m.length := by
  have hlen := buf.length_contents
  have hm := m.size_pos
  rw [h,frames_append,frames_cons,List.length_append,List.length_append,Message.length_encode] at hlen
  rw [Nat.add_assoc,read_contents (by omega),h,frames_append,frames_cons,be32,
    slice_append_right _ (by omega),Nat.add_sub_cancel_left,← be32,read_length]

-- What one packet is cut to: whole messages that the checks let pass, in the bucket or alone.
structure Packet (bucket : Nat) (packet rest left : List Message) : Prop where
  split : rest = packet ++ left
  nonempty : packet = [] → rest = []
  sendable : ∀ m ∈ packet, m.Sendable
  bounded : (frames packet).length ≤ bucket ∨ ∃ m, packet = [m]
  whole : (frames rest).length ≤ bucket → left = []

theorem getSendDataLoop_frames (bucket : Nat) {done rest : List Message} (taken : List Message) {fuel : Nat}
    (h : buf.contents = frames (done ++ taken ++ rest)) (hfuel : rest.length < fuel)
    (hframed : ∀ m ∈ rest, m.Framed) (hbucket : (frames taken).length ≤ bucket)
    (htaken : ∀ m ∈ taken, m.Sendable) :
    (∃ packet left, Packet bucket packet (taken ++ rest) left ∧
      getSendDataLoop buf bucket fuel (frames (done ++ taken)).length (frames taken).length =
        .ok (frames packet).length) ∨
    (∃ m ∈ rest, ¬ m.Sendable) ∧
      getSendDataLoop buf bucket fuel (frames (done ++ taken)).length (frames taken).length =
        .error .assertionFailed := by
  induction rest generalizing taken fuel with
  | nil =>
    obtain ⟨fuel,rfl⟩ := Nat.exists_eq_succ_of_ne_zero (by omega : fuel ≠ 0)
    refine .inl ⟨taken,[],⟨rfl,fun h => by rw [h]; rfl,htaken,.inl hbucket,fun _ => rfl⟩,?_⟩
    have hlen := buf.length_contents
    rw [h,List.append_nil] at hlen
    rw [getSendDataLoop,if_neg]
    rw [← hlen,subSize_of_le le_rfl,Nat.sub_self]
    decide
  | cons m rest ih =>
    obtain ⟨fuel,rfl⟩ := Nat.exists_eq_succ_of_ne_zero (by omega : fuel ≠ 0)
    have hm := m.size_pos
    have hwire : m.length.toNat = m.size := Message.toNat_length (hframed m (by simp))
    have hlen := buf.length_contents
    rw [h,frames_append,frames_cons,List.length_append,List.length_append,Message.length_encode] at hlen
    have hguard : sizeofMessageHeader ≤ subSize buf.dataLength (frames (done ++ taken)).length := by
      rw [subSize_of_le (by omega),sizeofMessageHeader]
      omega
    rw [getSendDataLoop,read_message_length h,hwire,if_pos hguard,if_neg (by omega)]
    by_cases hsend : m.size < messengerRecvQueueLength
    · rw [if_neg (by omega)]
      have hall : (frames (taken ++ m :: rest)).length =
          (frames taken).length + (m.size + (frames rest).length) := by simp
      split
      · rename_i hfull
        have hwhole : ¬ (frames (taken ++ m :: rest)).length ≤ bucket := by omega
        split
        · rename_i hempty
          have hnil : taken = [] := frames_eq_nil (by omega)
          subst hnil
          refine .inl ⟨[m],rest,⟨rfl,by simp,?_,.inr ⟨m,rfl⟩,fun hle => absurd hle hwhole⟩,by simp⟩
          intro a ha
          rw [List.mem_singleton.mp ha]
          exact hsend
        · rename_i hsome
          refine .inl ⟨taken,m :: rest,⟨rfl,?_,htaken,.inl hbucket,fun hle => absurd hle hwhole⟩,rfl⟩
          intro hnil
          subst hnil
          exact absurd rfl hsome
      · rename_i hroom
        have hnext : buf.contents = frames (done ++ (taken ++ [m]) ++ rest) := by
          rw [h]
          simp
        have hoff : (frames (done ++ (taken ++ [m]))).length =
            (frames (done ++ taken)).length + m.size := by
          simp [Nat.add_assoc]
        have htotal : (frames (taken ++ [m])).length = (frames taken).length + m.size := by simp
        have hsendable : ∀ a ∈ taken ++ [m], a.Sendable := by
          intro a ha
          rcases List.mem_append.mp ha with ha | ha
          · exact htaken a ha
          · rw [List.mem_singleton.mp ha]
            exact hsend
        have := ih (taken ++ [m]) hnext (by simpa using hfuel) (fun a ha => hframed a (by simp [ha]))
          (by omega) hsendable
        rw [hoff,htotal,List.append_assoc,List.singleton_append] at this
        rcases this with hok | ⟨⟨a,ha,hlarge⟩,herror⟩
        · exact .inl hok
        · exact .inr ⟨⟨a,by simp [ha],hlarge⟩,herror⟩
    · rw [if_pos hsend]
      exact .inr ⟨⟨m,by simp,hsend⟩,rfl⟩

theorem messages_le_bytes (ms : List Message) : ms.length ≤ (frames ms).length := by
  induction ms with
  | nil => exact Nat.zero_le _
  | cons m ms ih =>
    have := m.size_pos
    rw [frames_cons,List.length_append,Message.length_encode,List.length_cons]
    omega

theorem getSendData_frames {sq : SendQueue} {done rest : List Message}
    (h : sq.buffer.contents = frames (done ++ rest)) (hframed : ∀ m ∈ rest, m.Framed)
    (used : Option Nat) :
    (∃ packet left, Packet (bucketSize sq.socketBufferSize used) packet rest left ∧
      getSendData sq used (frames done).length = .ok (frames packet).length) ∨
    (∃ m ∈ rest, ¬ m.Sendable) ∧ getSendData sq used (frames done).length = .error .assertionFailed := by
  have hlen := sq.buffer.length_contents
  have hcount := messages_le_bytes (done ++ rest)
  rw [h] at hlen
  rw [List.length_append] at hcount
  have hstart : sq.buffer.contents = frames (done ++ [] ++ rest) := by rw [List.append_nil,h]
  have := getSendDataLoop_frames (bucketSize sq.socketBufferSize used) [] hstart
    (by omega : rest.length < sq.buffer.dataLength + 1) hframed (Nat.zero_le _) (by simp)
  rw [List.append_nil] at this
  exact this

theorem bucketSize_le (size : Nat) (used : Option Nat) : bucketSize size used ≤ messengerBucketSize := by
  unfold bucketSize
  split
  · split
    · exact le_rfl
    · split
      · exact Nat.min_le_right _ _
      · decide
  · exact le_rfl

end Cutting

end Trema.Messenger
