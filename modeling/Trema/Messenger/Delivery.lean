import Trema.Messenger.Packets

namespace Trema.Messenger

open Library

def WithinRecv (outputs : List Output) : Prop :=
  ∀ bytes result, Output.packet bytes result ∈ outputs → bytes.length ≤ messengerRecvBuffer

section Loop

variable {sq : SendQueue}

-- What a call leaves of the messages it started with.
structure SentPart (outcome : Nat → SendOutcome) (done rest : List Message) (r : Sent)
    (sent left : List Message) (outputs : List Output) : Prop where
  split : rest = sent ++ left
  total : r.total = (frames (done ++ sent)).length
  explained : Explained rest outputs sent left
  sendable : ∀ m ∈ sent, m.Sendable
  within : (∀ m ∈ rest, m.size ≤ messengerRecvBuffer) → WithinRecv r.outputs
  ended : r.stopped = none → left = [] ∧ r.outputs = outputs
  stopped : ∀ result, r.stopped = some result → result ≠ .sent ∧ (∃ n, (outcome n).result = result) ∧
    ∃ packet tail, left = packet ++ tail ∧ packet ≠ [] ∧
      r.outputs = outputs ++ [.packet (frames packet) result]

theorem Packet.length_le {bucket : Nat} {packet rest left : List Message} (h : Packet bucket packet rest left)
    (hbucket : bucket ≤ messengerRecvBuffer) (hrest : ∀ m ∈ rest, m.size ≤ messengerRecvBuffer) :
    (frames packet).length ≤ messengerRecvBuffer := by
  rcases h.bounded with hle | ⟨m,rfl⟩
  · exact hle.trans hbucket
  · have hm := hrest m (by rw [h.split]; simp)
    simpa using hm

theorem slice_packet {done packet left : List Message}
    (h : sq.buffer.contents = frames (done ++ (packet ++ left))) :
    slice sq.buffer.buffer (sq.buffer.headOffset + (frames done).length) (frames packet).length =
      frames packet := by
  have hlen := sq.buffer.length_contents
  rw [h,frames_append,frames_append,List.length_append,List.length_append] at hlen
  rw [sq.buffer.slice_contents (by omega),h,frames_append,frames_append,slice_append_right _ le_rfl,
    Nat.sub_self,slice_append_left (by omega)]
  exact slice_whole rfl

theorem sendLoop_frames {done rest : List Message} {fuel : Nat}
    (h : sq.buffer.contents = frames (done ++ rest)) (hframed : ∀ m ∈ rest, m.Framed)
    (hfuel : rest.length < fuel) (outcome : Nat → SendOutcome) :
    (∃ r sent left outputs, sendLoop sq fuel outcome (frames done).length = .ok r ∧
      SentPart outcome done rest r sent left outputs) ∨
    (∃ m ∈ rest, ¬ m.Sendable) ∧
      sendLoop sq fuel outcome (frames done).length = .error .assertionFailed := by
  induction fuel generalizing done rest outcome with
  | zero => exact absurd hfuel (Nat.not_lt_zero _)
  | succ fuel ih =>
    rw [sendLoop]
    rcases getSendData_frames h hframed (outcome 0).used with ⟨packet,left,hpacket,hdata⟩ | ⟨hlarge,hdata⟩
    · rw [hdata]
      have hbucket := bucketSize_le sq.socketBufferSize (outcome 0).used
      by_cases hempty : packet = []
      · have hall := hpacket.nonempty hempty
        subst hempty hall
        refine .inl ⟨_,[],[],[],rfl,⟨rfl,by simp,.done _,by simp,?_,fun _ => ⟨rfl,rfl⟩,?_⟩⟩
        · intro _ bytes result hmem
          simp at hmem
        · intro result hstop
          exact absurd hstop (by simp)
      · obtain ⟨n,hn⟩ : ∃ n, (frames packet).length = n + 1 := by
          refine Nat.exists_eq_succ_of_ne_zero fun hzero => hempty ?_
          exact frames_eq_nil (by omega)
        rw [hn]
        simp only
        rw [← hn,slice_packet (by rw [h,hpacket.split])]
        have hcut : ∀ result, (outcome 0).result = result → result ≠ .sent → SentPart outcome done rest
            ⟨[.packet (frames packet) result],(frames done).length,some result⟩ [] rest [] := by
          intro result hzero hresult
          refine ⟨rfl,by rw [List.append_nil],.done _,by simp,?_,by simp,?_⟩
          · intro hrest bytes other hmem
            obtain ⟨rfl,rfl⟩ : bytes = frames packet ∧ other = result := by simpa using hmem
            exact hpacket.length_le hbucket hrest
          · intro other hother
            obtain rfl := Option.some.inj hother
            exact ⟨hresult,⟨0,hzero⟩,packet,left,hpacket.split,hempty,rfl⟩
        cases hresult : (outcome 0).result with
        | sent =>
          have hnext : sq.buffer.contents = frames ((done ++ packet) ++ left) := by
            rw [h,hpacket.split,List.append_assoc]
          have hcount : left.length < fuel := by
            have hpos := List.length_pos_of_ne_nil hempty
            rw [hpacket.split,List.length_append] at hfuel
            omega
          have hmem : ∀ a ∈ left, a ∈ rest := by
            intro a ha
            rw [hpacket.split]
            simp [ha]
          have hrec := ih hnext (fun a ha => hframed a (hmem a ha)) hcount fun n => outcome (n + 1)
          rw [frames_append,List.length_append] at hrec
          rcases hrec with ⟨r,sent,left',outputs,hr,hpart⟩ | ⟨⟨a,ha,hlarge⟩,herror⟩
          · simp only [hr]
            refine .inl ⟨_,packet ++ sent,left',.packet (frames packet) .sent :: outputs,rfl,
              ⟨?_,?_,?_,?_,?_,?_,?_⟩⟩
            · rw [hpacket.split,hpart.split,List.append_assoc]
            · rw [hpart.total,List.append_assoc]
            · rw [hpacket.split]
              exact .sent hempty hpart.explained
            · intro a ha
              rcases List.mem_append.mp ha with ha | ha
              · exact hpacket.sendable a ha
              · exact hpart.sendable a ha
            · intro hrest bytes result hout
              rcases List.mem_cons.mp hout with heq | hout
              · obtain ⟨rfl,rfl⟩ := Output.packet.inj heq
                exact hpacket.length_le hbucket hrest
              · exact hpart.within (fun a ha => hrest a (hmem a ha)) bytes result hout
            · intro hnone
              obtain ⟨hleft,hout⟩ := hpart.ended hnone
              exact ⟨hleft,congrArg _ hout⟩
            · intro result hres
              obtain ⟨hne,⟨n,hn⟩,packet',tail,hl,hp,ho⟩ := hpart.stopped result hres
              exact ⟨hne,⟨n + 1,hn⟩,packet',tail,hl,hp,congrArg _ ho⟩
          · rw [herror]
            exact .inr ⟨⟨a,hmem a ha,hlarge⟩,rfl⟩
        | again => exact .inl ⟨_,_,_,_,rfl,hcut .again hresult (by simp)⟩
        | tooBig => exact .inl ⟨_,_,_,_,rfl,hcut .tooBig hresult (by simp)⟩
        | failed => exact .inl ⟨_,_,_,_,rfl,hcut .failed hresult (by simp)⟩
    · rw [hdata]
      exact .inr ⟨hlarge,rfl⟩

end Loop

section Queue

variable (id : QueueId) (s : Station) (outcome : ConnectOutcome)

variable {s} {pending : List Message}

-- The buffer holds the pending messages, whole and in order.
structure Holding (s : Station) (pending : List Message) : Prop where
  contents : s.sq.buffer.contents = frames pending
  framed : ∀ m ∈ pending, m.Framed
  size : s.sq.buffer.size = messengerSendQueueLength

theorem Holding.length {s : Station} (h : Holding s pending) :
    (frames pending).length = s.sq.buffer.dataLength := by
  rw [← h.contents,MessageBuffer.length_contents]

theorem Holding.of_buffer {s s' : Station} (h : Holding s pending) (hb : s'.sq.buffer = s.sq.buffer) :
    Holding s' pending :=
  ⟨by rw [hb,h.contents],h.framed,by rw [hb,h.size]⟩

theorem Holding.truncate {s s' : Station} {sent left : List Message} (h : Holding s (sent ++ left))
    (hb : s'.sq.buffer = truncateMessageBuffer s.sq.buffer (frames sent).length) : Holding s' left := by
  have hall : s.sq.buffer.contents = frames sent ++ frames left := by
    rw [← frames_append]
    exact h.contents
  refine ⟨?_,fun m hm => h.framed m (by simp [hm]),by rw [hb,size_truncate]; exact h.size⟩
  rw [hb,contents_truncate,hall,List.drop_left]

-- What a call of `onSendWrite` makes of the pending messages.
structure Written (sends : Nat → SendOutcome) (pending : List Message) (outputs : List Output) (s : Station)
    (delivered left : List Message) : Prop where
  explained : Explained pending outputs delivered left
  holding : Holding s left
  within : (∀ m ∈ pending, m.size ≤ messengerRecvBuffer) → WithinRecv outputs
  drained : (∀ n, (sends n).result = .sent) →
    left = [] ∧ delivered = pending ∧ ∀ m ∈ pending, m.Sendable

theorem onSendWrite_holding (h : Holding s pending) (sends : Nat → SendOutcome) :
    (∃ outputs s' delivered left, onSendWrite id s sends outcome = .ok (outputs,s') ∧
      Written sends pending outputs s' delivered left) ∨
    (∃ m ∈ pending, ¬ m.Sendable) ∧ onSendWrite id s sends outcome = .error .assertionFailed := by
  have hlen := h.length
  rw [onSendWrite]
  split
  · rename_i hshort
    have hnone : pending = [] := frames_eq_nil (by rw [hlen]; exact hshort)
    subst hnone
    refine .inl ⟨_,_,[],[],rfl,⟨.done _,h.of_buffer rfl,?_,by simp⟩⟩
    intro _ bytes result hmem
    simp at hmem
  · have hfuel : pending.length < s.sq.buffer.dataLength + 1 := by
      have := messages_le_bytes pending
      omega
    have hstart : s.sq.buffer.contents = frames ([] ++ pending) := h.contents
    have hloop := sendLoop_frames hstart h.framed hfuel sends
    simp only [frames_nil,List.length_nil] at hloop
    rcases hloop with ⟨r,sent,left,outputs,hr,hpart⟩ | ⟨hlarge,herror⟩
    · have htotal := hpart.total
      rw [List.nil_append] at htotal
      have hheld := h
      rw [hpart.split] at hheld
      simp only [hr]
      cases hres : r.stopped with
      | none =>
        obtain ⟨rfl,hout⟩ := hpart.ended hres
        have hsplit := hpart.split
        rw [List.append_nil] at hsplit
        have hexp := hpart.explained
        rw [← hout] at hexp
        rw [htotal]
        refine .inl ⟨_,_,_,_,rfl,hexp,hheld.truncate ?_,hpart.within,fun _ => ⟨rfl,hsplit.symm,?_⟩⟩
        · split <;> rfl
        · rw [hsplit]
          exact hpart.sendable
      | some result =>
        obtain ⟨hne,⟨n,hn⟩,packet,tail,hleft,hpacket,hout⟩ := hpart.stopped result hres
        have hnever : ¬ ∀ n, (sends n).result = .sent := by
          intro hsent
          exact hne (hn.symm.trans (hsent n))
        simp only
        generalize hs' : (if result ≠ .again then (sendQueueTryConnect id
          ⟨{ closeSocket s.sq with refusedCount := 0 },s.timers⟩ outcome).2 else s) = s'
        have hbuffer : s'.sq.buffer = s.sq.buffer := by
          rw [← hs']
          split
          · exact buffer_tryConnect id _ outcome
          · rfl
        rw [hbuffer,htotal]
        have hkept : ∀ sq timers, sq.buffer = truncateMessageBuffer s.sq.buffer (frames sent).length →
            Holding ⟨sq,timers⟩ left := fun sq timers hb => hheld.truncate hb
        split
        · rename_i htoo
          subst htoo
          let sq := { s'.sq with buffer := truncateMessageBuffer s.sq.buffer (frames sent).length }
          have hrest : Holding ⟨sq,s'.timers⟩ (left ++ []) := by
            rw [List.append_nil]
            exact hkept sq s'.timers rfl
          have hcontents : sq.buffer.contents = frames left := (hkept sq s'.timers rfl).contents
          have hexp : Explained (packet ++ tail ++ [])
              ([.packet (frames packet) .tooBig] ++ [.dropped (frames (packet ++ tail))]) [] [] :=
            .dropped hpacket (.done [])
          rw [List.append_nil,← hleft] at hexp
          refine .inl ⟨_,_,sent ++ [],[],rfl,?_,?_,?_,fun hsent => absurd hsent hnever⟩
          · have := hpart.explained.trans hexp
            rw [← List.append_assoc,← hout,← hcontents] at this
            exact this
          · refine hrest.truncate ?_
            rw [(hkept sq s'.timers rfl).length]
          · intro hsmall bytes res hmem
            rcases List.mem_append.mp hmem with hmem | hmem
            · exact hpart.within hsmall bytes res hmem
            · simp at hmem
        · rename_i hother
          have hresult : result = .again ∨ result = .failed := by
            cases result with
            | sent => exact absurd rfl hne
            | again => exact .inl rfl
            | tooBig => exact absurd rfl hother
            | failed => exact .inr rfl
          have hexp : Explained left [.packet (frames packet) result] [] left := by
            rw [hleft]
            exact .refused hpacket hresult (.done _)
          have hall := hpart.explained.trans hexp
          rw [← hout] at hall
          exact .inl ⟨_,_,_,left,rfl,hall,hkept _ _ rfl,hpart.within,fun hsent => absurd hsent hnever⟩
    · rw [herror]
      exact .inr ⟨hlarge,rfl⟩

-- What fits one bucket goes out as one packet.
theorem onSendWrite_single (h : Holding s pending) (hne : pending ≠ []) (hsend : ∀ m ∈ pending, m.Sendable)
    {sends : Nat → SendOutcome} (hsent : ∀ n, (sends n).result = .sent)
    (hbucket : (frames pending).length ≤ bucketSize s.sq.socketBufferSize (sends 0).used) :
    ∃ s', onSendWrite id s sends outcome = .ok ([.packet (frames pending) .sent],s') ∧ Holding s' [] := by
  have hlen := h.length
  have hcontents : s.sq.buffer.contents = frames ([] ++ pending) := h.contents
  have hrest : s.sq.buffer.contents = frames (pending ++ []) := by rw [List.append_nil,h.contents]
  have hshort : ¬ s.sq.buffer.dataLength < sizeofMessageHeader := by
    rw [← hlen]
    exact fun hshort => hne (frames_eq_nil hshort)
  obtain ⟨n,hn⟩ : ∃ n, s.sq.buffer.dataLength = n + 1 := by
    refine Nat.exists_eq_succ_of_ne_zero fun hzero => hshort ?_
    rw [hzero]
    decide
  have hfirst : getSendData s.sq (sends 0).used 0 = .ok (n + 1) := by
    rcases getSendData_frames hcontents h.framed (sends 0).used with
      ⟨packet,left,hpacket,hdata⟩ | ⟨⟨m,hm,hlarge⟩,_⟩
    · have hsplit := hpacket.split
      rw [hpacket.whole hbucket,List.append_nil] at hsplit
      rw [← hsplit,hlen,hn] at hdata
      exact hdata
    · exact absurd (hsend m hm) hlarge
  have hlast : getSendData s.sq (sends 1).used (n + 1) = .ok 0 := by
    rcases getSendData_frames hrest (by simp) (sends 1).used with
      ⟨packet,left,hpacket,hdata⟩ | ⟨⟨m,hm,_⟩,_⟩
    · rw [(List.append_eq_nil_iff.mp hpacket.split.symm).1,hlen,hn] at hdata
      exact hdata
    · exact absurd hm (by simp)
  have hslice : slice s.sq.buffer.buffer (s.sq.buffer.headOffset + 0) (n + 1) = frames pending := by
    rw [← hn,Nat.add_zero]
    exact h.contents
  rw [onSendWrite,if_neg hshort,hn]
  simp only [sendLoop,hfirst,hsent,Nat.zero_add,hlast,hslice]
  refine ⟨_,rfl,?_⟩
  have hdone : Holding s (pending ++ []) := by rw [List.append_nil]; exact h
  refine hdone.truncate ?_
  rw [hlen,hn]
  split <;> rfl

end Queue

end Trema.Messenger
