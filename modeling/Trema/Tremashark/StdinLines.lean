import Trema.Tremashark.StdinRelay

namespace Trema.Tremashark

open Library Buffer StdinRelay
open Utility (ptrdiffMax sizeMax)

section Finding

variable {bytes : Bytes} {character : UInt8} {k : Nat}

theorem findCharacter_none (h : findCharacter bytes character = none) : character ∉ bytes := by
  induction bytes with
  | nil => exact List.not_mem_nil
  | cons b bytes ih =>
    rw [findCharacter] at h
    split at h
    · simp at h
    · rename_i hb
      rw [List.mem_cons,not_or]
      exact ⟨fun heq => hb heq.symm,ih (Option.map_eq_none_iff.mp h)⟩

theorem findCharacter_some (h : findCharacter bytes character = some k) :
    k < bytes.length ∧ character ∉ bytes.take k ∧
      bytes = bytes.take k ++ character :: bytes.drop (k + 1) := by
  induction bytes generalizing k with
  | nil => simp [findCharacter] at h
  | cons b bytes ih =>
    rw [findCharacter] at h
    split at h
    · rename_i hb
      obtain rfl : 0 = k := Option.some.inj h
      exact ⟨Nat.succ_pos _,List.not_mem_nil,hb ▸ rfl⟩
    · rename_i hb
      obtain ⟨i,hi,rfl⟩ := Option.map_eq_some_iff.mp h
      obtain ⟨hlt,hnot,hsplit⟩ := ih hi
      refine ⟨Nat.succ_lt_succ hlt,?_,?_⟩
      · rw [List.take_succ_cons,List.mem_cons,not_or]
        exact ⟨fun heq => hb heq.symm,hnot⟩
      · conv_lhs => rw [hsplit]
        rfl

end Finding

section Lines

variable {heap : Heap} {pbuf : PrivateBuffer} {bytes : Bytes} {n : Nat}

theorem bytesAt_spec (h : Owns heap pbuf bytes) (hreal : 0 < pbuf.realLength) (hn : n ≤ bytes.length) :
    bytesAt heap pbuf n = .ok (bytes.take n) := by
  obtain ⟨top,htop⟩ := h.top_isSome hreal
  rw [bytesAt,htop]
  exact h.load htop hn

theorem copyLine_spec (h : Owns heap pbuf bytes) (hpos : 0 < n) (hn : n ≤ bytes.length) :
    ∃ heap', copyLine heap pbuf n = .ok (heap',bytes.take n) ∧ Owns heap' pbuf bytes := by
  have hroom := h.room
  have hlimit := h.limit
  have hlength := h.length_eq
  have hsmall : n ≤ ptrdiffMax := by omega
  have hfresh : Apart pbuf allocPrivateBuffer := fun _ _ hc => by simp [allocPrivateBuffer] at hc
  rcases allocBufferWithLength_spec heap hpos with ⟨hlarge,_⟩ |
    ⟨heap₁,string,halloc,howns₁,hspares₁,hdata,_⟩
  · exact absurd hsmall (Nat.not_le.mpr hlarge)
  obtain ⟨h₁,hapart₁⟩ := h.spared hfresh hspares₁
  have hempty : string.length = 0 := howns₁.length_eq.symm
  have hsum : string.data + string.length + n = n := by omega
  rcases appendBackBuffer_spec howns₁ hpos (by rw [hsum]; exact hsmall.trans (by decide)) with
    ⟨hlarge,_⟩ | ⟨new,top,heap₂,string₂,happend,hnew,hgrows,htop⟩
  · rw [hsum] at hlarge
    exact absurd hsmall (Nat.not_le.mpr hlarge)
  obtain ⟨h₂,hapart₂⟩ := h₁.spared hapart₁ hgrows.spares
  have hline : (bytes.take n).length = n := List.length_take_of_le hn
  obtain ⟨heap₃,hstore,howns₃,hspares₃⟩ := store_spec hgrows.owns 0 (bytes.take n) htop
    (by rw [hline,List.nil_append,hnew,Nat.zero_add])
  have hwritten : overwrite ([] ++ new) 0 (bytes.take n) = bytes.take n := by
    rw [overwrite,hline,List.nil_append,List.drop_eq_nil_of_le (by omega)]
    simp
  rw [hwritten] at howns₃
  obtain ⟨h₃,hapart₃⟩ := h₂.spared hapart₂ hspares₃
  obtain ⟨heap₄,hfree,hspares₄⟩ := freeBuffer_spec howns₃
  refine ⟨heap₄,?_,(h₃.spared hapart₃ hspares₄).1⟩
  have hreal : 0 < pbuf.realLength := by omega
  have hreal₃ : 0 < string₂.realLength := by
    have := howns₃.room
    have := howns₃.length_eq
    omega
  have hread := bytesAt_spec howns₃ hreal₃ (howns₃.length_eq.symm.le)
  rw [← howns₃.length_eq,List.take_length] at hread
  rw [copyLine,halloc]
  simp only [ok_bind,happend,bytesAt_spec h₂ hreal hn,List.length_nil,hstore,← howns₃.length_eq,hread,
    hfree]
  rfl

def nonEmpty (lines : List Bytes) : List Bytes := lines.filter (· ≠ [])

theorem nonEmpty_append (lines more : List Bytes) :
    nonEmpty (lines ++ more) = nonEmpty lines ++ nonEmpty more := List.filter_append _ _

theorem relayLine_spec (h : Owns heap pbuf bytes) (hn : n < bytes.length) (relayed : List Bytes) :
    ∃ heap' pbuf', relayLine heap pbuf relayed n = .ok (heap',pbuf',relayed ++ nonEmpty [bytes.take n]) ∧
      Owns heap' pbuf' (bytes.drop (n + 1)) ∧ pbuf'.data = pbuf.data + (n + 1) ∧
      pbuf'.realLength = pbuf.realLength := by
  have hle : n + 1 ≤ pbuf.length := h.length_eq ▸ hn
  rcases Nat.eq_zero_or_pos n with rfl | hpos
  · obtain ⟨pbuf',hremove,howns,_,hdata,hreal,_⟩ := removeFrontBuffer_spec h (Nat.succ_pos 0) hle
    refine ⟨heap,pbuf',?_,howns,hdata,hreal⟩
    rw [relayLine,if_neg (Nat.lt_irrefl 0),if_pos (Nat.lt_of_succ_le hle),hremove]
    simp [nonEmpty,pure_eq_ok]
  · obtain ⟨heap',hcopy,h'⟩ := copyLine_spec h hpos hn.le
    obtain ⟨pbuf',hremove,howns,_,hdata,hreal,_⟩ := removeFrontBuffer_spec h' (Nat.succ_pos n) hle
    have hline : bytes.take n ≠ [] := by
      intro hnil
      have hlength := congrArg List.length hnil
      rw [List.length_take_of_le hn.le] at hlength
      exact Nat.ne_of_gt hpos hlength
    refine ⟨heap',pbuf',?_,howns,hdata,hreal⟩
    rw [relayLine,if_pos hpos,hcopy]
    simp [hremove,nonEmpty,hline,pure_eq_ok]

theorem relayLines_spec (h : Owns heap pbuf bytes) (hreal : 0 < pbuf.realLength) {fuel : Nat}
    (hfuel : bytes.length < fuel) (relayed : List Bytes) :
    ∃ heap' pbuf' done pending,
      relayLines fuel heap pbuf relayed = .ok (heap',pbuf',relayed ++ nonEmpty done) ∧
      Segmented lineFeed bytes done pending ∧ Owns heap' pbuf' pending ∧
      pbuf'.data + pbuf'.length = pbuf.data + pbuf.length ∧ pbuf'.realLength = pbuf.realLength := by
  induction fuel generalizing heap pbuf bytes relayed with
  | zero => exact absurd hfuel (Nat.not_lt_zero _)
  | succ fuel ih =>
    have hread := bytesAt_spec h hreal h.length_eq.symm.le
    rw [← h.length_eq,List.take_length] at hread
    rw [relayLines,← h.length_eq,hread,ok_bind]
    cases hfind : findCharacter bytes lineFeed with
    | none =>
      refine ⟨heap,pbuf,[],bytes,?_,segmented_single (findCharacter_none hfind),h,
        congrArg (pbuf.data + ·) h.length_eq.symm,rfl⟩
      simp [nonEmpty,pure_eq_ok]
    | some n =>
      obtain ⟨hlt,hnot,hsplit⟩ := findCharacter_some hfind
      obtain ⟨heap₁,pbuf₁,hline,h₁,hdata,hreal₁⟩ := relayLine_spec h hlt relayed
      have hrest : pbuf₁.length = bytes.length - (n + 1) := by
        rw [← h₁.length_eq,List.length_drop]
      have hsum : pbuf₁.data + pbuf₁.length = pbuf.data + bytes.length := by omega
      simp only [hline,ok_bind]
      by_cases hend : pbuf₁.length = 0
      · have hnil : bytes.drop (n + 1) = [] := List.eq_nil_of_length_eq_zero (h₁.length_eq.trans hend)
        rw [hnil] at h₁ hsplit
        refine ⟨heap₁,pbuf₁,[bytes.take n],[],?_,?_,h₁,hsum,hreal₁⟩
        · rw [if_pos hend]
          rfl
        · have hsegmented := (segmented_single (l := []) List.not_mem_nil).cons hnot
          rwa [← hsplit] at hsegmented
      · obtain ⟨heap₂,pbuf₂,done,pending,hrun,hsegmented,h₂,hsum₂,hreal₂⟩ :=
          ih h₁ (hreal₁ ▸ hreal) (by rw [List.length_drop]; omega) (relayed ++ nonEmpty [bytes.take n])
        refine ⟨heap₂,pbuf₂,bytes.take n :: done,pending,?_,?_,h₂,hsum₂.trans hsum,hreal₂.trans hreal₁⟩
        · rw [if_neg hend,hrun,List.append_assoc,← nonEmpty_append]
          rfl
        · have hall := hsegmented.cons hnot
          rwa [← hsplit] at hall

end Lines

def ReadResult.bytes : ReadResult → Bytes
  | .data bytes _ => bytes
  | .again => []
  | .failed => []

def streamOf (reads : List ReadResult) : Bytes := reads.flatMap ReadResult.bytes

def linesOf (stream : Bytes) : List Bytes := nonEmpty (stream.splitOn lineFeed).dropLast

def unendedOf (stream : Bytes) : Bytes := (stream.splitOn lineFeed).getLastD []

-- The buffer holds the unended line behind everything that was read before it.
structure Holds (s : StdinRelay) (stream : Bytes) (pbuf : PrivateBuffer) (done : List Bytes)
    (pending : Bytes) : Prop where
  buffer : s.stdinReadBuffer = some pbuf
  owns : Owns s.heap pbuf pending
  segmented : Segmented lineFeed stream done pending
  relayed : s.relayed = nonEmpty done
  read : pbuf.data + pbuf.length = stream.length
  realLength : pbuf.realLength = max 1024 stream.length

section Reading

variable {s : StdinRelay} {stream pending bytes : Bytes} {pbuf : PrivateBuffer} {done : List Bytes}

theorem holds_init : ∃ s pbuf, initStdinRelay = .ok s ∧ Holds s [] pbuf [] [] := by
  rcases allocBufferWithLength_spec ⟨[]⟩ (show 0 < 1024 by decide) with ⟨hlarge,_⟩ |
    ⟨heap,pbuf,halloc,howns,_,hdata,hreal⟩
  · exact absurd hlarge (by decide)
  · refine ⟨⟨heap,some pbuf,true,[]⟩,pbuf,?_,rfl,howns,segmented_single List.not_mem_nil,rfl,?_,hreal⟩
    · rw [initStdinRelay,halloc]
      rfl
    · rw [hdata,← howns.length_eq]
      rfl

theorem overwrite_append {a b c : Bytes} (h : c.length = b.length) :
    overwrite (a ++ b) a.length c = a ++ c := by
  rw [overwrite,List.take_left' rfl,List.drop_eq_nil_of_le (by rw [List.length_append]; omega),
    List.append_nil]

theorem readStdin_data (h : Holds s stream pbuf done pending) (size : bytes.length ≤ 1024)
    (hpos : 0 < bytes.length) :
    (ptrdiffMax < (stream ++ bytes).length ∧ readStdin s (.data bytes size) = .error .aborted) ∨
    ((stream ++ bytes).length ≤ ptrdiffMax ∧ ∃ s' pbuf' done' pending',
      readStdin s (.data bytes size) = .ok s' ∧ Holds s' (stream ++ bytes) pbuf' done' pending') := by
  obtain ⟨hbuffer,howns,hsegmented,hrelayed,hread,hreal⟩ := h
  have hroom : pbuf.data + pbuf.length ≤ pbuf.realLength := howns.room
  have hlimit := howns.limit
  have hsum : pbuf.data + pbuf.length + bytes.length ≤ sizeMax := by
    have : ptrdiffMax + 1024 ≤ sizeMax := by decide
    omega
  rw [readStdin,if_neg hpos.ne',hbuffer,List.length_append,← hread]
  rcases appendBackBuffer_spec howns hpos hsum with ⟨hlarge,habort⟩ |
    ⟨new,top,heap₁,pbuf₁,happend,hnew,hgrows,htop⟩
  · refine .inl ⟨hlarge,?_⟩
    simp only [habort,error_bind]
  · have hgrown := hgrows.realLength
    obtain ⟨heap₂,hstore,howns₂,_⟩ := store_spec hgrows.owns pending.length bytes htop
      (by rw [List.length_append,hnew])
    rw [overwrite_append hnew.symm] at howns₂
    have hreal₁ : 0 < pbuf₁.realLength := by omega
    obtain ⟨heap₃,pbuf₃,done',pending',hrun,hsegmented',howns₃,hread₃,hreal₃⟩ :=
      relayLines_spec howns₂ hreal₁ (Nat.lt_succ_self _) s.relayed
    have hfresh : Apart pbuf₃ allocPrivateBuffer := fun _ _ hc => by simp [allocPrivateBuffer] at hc
    obtain ⟨heap₄,copy,hcopy,hcopied,hspares₄,hdata₄,hreal₄⟩ := duplicateBuffer_spec howns₃
    obtain ⟨howns₄,hapart₄⟩ := howns₃.spared hfresh hspares₄
    obtain ⟨heap₅,hfree,hspares₅⟩ := freeBuffer_spec howns₄
    have hfit := (hcopied.spared hapart₄.symm hspares₅).1
    have hlength₁ : (pending ++ bytes).length = pbuf₁.length := howns₂.length_eq
    have hcount := hgrows.length
    have hplace := hgrows.data
    have hsame : copy.length = pbuf₃.length := hcopied.length_eq.symm.trans howns₃.length_eq
    refine .inr ⟨?_,⟨heap₅,some copy,s.readable,s.relayed ++ nonEmpty done'⟩,copy,done ++ done',
      pending',?_,rfl,hfit,hsegmented.trans hsegmented',?_,?_,?_⟩
    · have := hgrows.owns.limit
      omega
    · rw [hlength₁] at hrun
      simp only [happend,ok_bind,hstore,hrun,hcopy,hfree]
      rfl
    · rw [nonEmpty_append,hrelayed]
    · rw [List.length_append]
      omega
    · rw [List.length_append,← hread]
      omega

theorem readStdin_spec (h : Holds s stream pbuf done pending) (hfits : stream.length ≤ ptrdiffMax)
    (result : ReadResult) :
    (ptrdiffMax < (stream ++ result.bytes).length ∧ readStdin s result = .error .aborted) ∨
    ((stream ++ result.bytes).length ≤ ptrdiffMax ∧ ∃ s' pbuf' done' pending',
      readStdin s result = .ok s' ∧ Holds s' (stream ++ result.bytes) pbuf' done' pending') := by
  cases result with
  | data bytes size =>
    rcases Nat.eq_zero_or_pos bytes.length with hzero | hpos
    · obtain rfl := List.eq_nil_of_length_eq_zero hzero
      rw [ReadResult.bytes,List.append_nil]
      exact .inr ⟨hfits,s,pbuf,done,pending,rfl,h⟩
    · exact readStdin_data h size hpos
  | again =>
    rw [ReadResult.bytes,List.append_nil]
    exact .inr ⟨hfits,s,pbuf,done,pending,rfl,h⟩
  | failed =>
    rw [ReadResult.bytes,List.append_nil]
    exact .inr ⟨hfits,{ s with readable := false },pbuf,done,pending,rfl,h.buffer,h.owns,h.segmented,
      h.relayed,h.read,h.realLength⟩

end Reading

section Runs

variable {reads : List ReadResult} {stream pending : Bytes} {pbuf : PrivateBuffer} {done : List Bytes}

theorem run_concat (reads : List ReadResult) (result : ReadResult) :
    run (reads ++ [result]) = run reads >>= fun s => readStdin s result := by
  rw [run,run,bind_assoc]
  congr 1
  funext s
  rw [List.foldlM_append]
  simp

theorem streamOf_concat (reads : List ReadResult) (result : ReadResult) :
    streamOf (reads ++ [result]) = streamOf reads ++ result.bytes := by
  rw [streamOf,List.flatMap_append,List.flatMap_singleton]
  rfl

theorem run_spec (reads : List ReadResult) :
    (ptrdiffMax < (streamOf reads).length ∧ run reads = .error .aborted) ∨
    ((streamOf reads).length ≤ ptrdiffMax ∧ ∃ s pbuf done pending,
      run reads = .ok s ∧ Holds s (streamOf reads) pbuf done pending) := by
  induction reads using List.reverseRecOn with
  | nil =>
    obtain ⟨s,pbuf,hinit,hholds⟩ := holds_init
    refine .inr ⟨Nat.zero_le _,s,pbuf,[],[],?_,hholds⟩
    rw [run,hinit]
    rfl
  | append_singleton reads result ih =>
    rw [run_concat,streamOf_concat]
    rcases ih with ⟨hlarge,habort⟩ | ⟨hfits,s,pbuf,done,pending,hrun,hholds⟩
    · refine .inl ⟨?_,?_⟩
      · rw [List.length_append]
        exact Nat.lt_add_right _ hlarge
      · rw [habort]
        rfl
    · rw [hrun,ok_bind]
      exact readStdin_spec hholds hfits result

-- What the relay is to do with a stream, whatever the reads it came in.
structure Relays (s : StdinRelay) (stream : Bytes) (pbuf : PrivateBuffer) : Prop where
  relayed : s.relayed = linesOf stream
  buffer : s.stdinReadBuffer = some pbuf
  unended : bytesAt s.heap pbuf pbuf.length = .ok (unendedOf stream)

theorem Holds.relays {s : StdinRelay} (h : Holds s stream pbuf done pending) : Relays s stream pbuf := by
  refine ⟨?_,h.buffer,?_⟩
  · rw [h.relayed,linesOf,h.segmented.splitOn,List.dropLast_concat]
  · have hreal : 0 < pbuf.realLength := by
      rw [h.realLength]
      omega
    have hread := bytesAt_spec h.owns hreal h.owns.length_eq.symm.le
    rw [← h.owns.length_eq,List.take_length] at hread
    rw [← h.owns.length_eq,hread,unendedOf,h.segmented.splitOn,List.getLastD_concat]

theorem Holds.headRoom_iff {s : StdinRelay} (h : Holds s stream pbuf done pending) :
    frontLengthOf pbuf = 0 ↔ lineFeed ∉ stream := by
  have hlength := h.segmented.length_eq
  have hread := h.read
  rw [← h.owns.length_eq] at hread
  rw [← h.segmented.none_iff,frontLengthOf]
  omega

end Runs

-- The whole of the purpose: no head room is left either.
def Truncates (reads : List ReadResult) : Prop :=
  ∃ s pbuf, run reads = .ok s ∧ Relays s (streamOf reads) pbuf ∧ frontLengthOf pbuf = 0

theorem read_stdin_truncates_iff (reads : List ReadResult) :
    (Truncates reads ↔ lineFeed ∉ streamOf reads ∧ (streamOf reads).length ≤ ptrdiffMax) ∧
    ((streamOf reads).length ≤ ptrdiffMax → ∃ s pbuf, run reads = .ok s ∧
      Relays s (streamOf reads) pbuf ∧
      frontLengthOf pbuf + (unendedOf (streamOf reads)).length = (streamOf reads).length ∧
      pbuf.realLength = max 1024 (streamOf reads).length) := by
  rcases run_spec reads with ⟨hlarge,habort⟩ | ⟨hfits,s,pbuf,done,pending,hrun,hholds⟩
  · refine ⟨⟨?_,fun h => absurd h.2 (Nat.not_le.mpr hlarge)⟩,fun h => absurd h (Nat.not_le.mpr hlarge)⟩
    rintro ⟨s,_,hrun,_⟩
    rw [habort] at hrun
    simp at hrun
  · refine ⟨⟨?_,fun h => ⟨s,pbuf,hrun,hholds.relays,hholds.headRoom_iff.mpr h.1⟩⟩,fun _ =>
      ⟨s,pbuf,hrun,hholds.relays,?_,hholds.realLength⟩⟩
    · rintro ⟨s',pbuf',hrun',hrelays,hroom⟩
      rw [hrun] at hrun'
      injection hrun' with hs
      subst hs
      obtain rfl : pbuf = pbuf' := Option.some.inj (hholds.buffer.symm.trans hrelays.buffer)
      exact ⟨hholds.headRoom_iff.mp hroom,hfits⟩
    · rw [unendedOf,hholds.segmented.splitOn,List.getLastD_concat,hholds.owns.length_eq]
      exact hholds.read

def oneLine : List ReadResult := [.data [97,10] (by decide)]

-- duplicate_buffer copies the head room along with the rest.
theorem head_room_kept : ∃ s pbuf, run oneLine = .ok s ∧ s.relayed = [[97]] ∧
    s.stdinReadBuffer = some pbuf ∧ frontLengthOf pbuf = 2 ∧ ¬ Truncates oneLine := by
  have hrun : (run oneLine).toOption.map (fun s => (s.relayed,s.stdinReadBuffer)) =
      some ([[97]],some ⟨2,0,some 2,1024⟩) := by decide +kernel
  cases h : run oneLine with
  | error e =>
    rw [h] at hrun
    simp [Except.toOption] at hrun
  | ok s =>
    rw [h] at hrun
    injection hrun with hrun
    injection hrun with hrelayed hbuffer
    refine ⟨s,_,rfl,hrelayed,hbuffer,rfl,?_⟩
    rintro ⟨s',pbuf',hrun',hrelays,hroom⟩
    rw [h] at hrun'
    injection hrun' with hs
    subst hs
    have hsame := Option.some.inj (hbuffer.symm.trans hrelays.buffer)
    rw [← hsame] at hroom
    simp [frontLengthOf] at hroom

end Trema.Tremashark
