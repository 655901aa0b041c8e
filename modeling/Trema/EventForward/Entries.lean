import Trema.EventForward.Manipulation

namespace Trema.EventForward

open Library
open OpenFlow (Exec abortIf subSize)
open PacketinFilter (CString)
open Table (appendToTail)

section Scanning

variable {m bs rest : Bytes} {c : UInt8} {off k i begin_ requested : Nat} {acc : List Nat} {names : List CString}

theorem byteAt_drop (h : m.drop off = c :: rest) : (byteAt m off : Exec UInt8) = .ok c := by
  have hlen := congrArg List.length h
  rw [List.length_drop,List.length_cons] at hlen
  have hbyte : hostByte m off = c := by
    rw [hostByte,slice,h]
    exact ofNat_leNat_byte c
  rw [byteAt_inside (by omega),hbyte]

theorem drop_succ_of_cons (h : m.drop off = c :: rest) : m.drop (off + 1) = rest := by
  rw [← List.drop_drop,h]
  rfl

theorem splitNames_scan (hm : m.drop (8 + i) = bs ++ rest) (hbs : 0 ∉ bs) :
    splitNames m requested (bs.length + k) i begin_ acc = splitNames m requested k (i + bs.length) begin_ acc := by
  induction bs generalizing i with
  | nil =>
    rw [List.length_nil,Nat.zero_add]
    rfl
  | cons c bs ih =>
    have hc : ¬ c = 0 := fun h => hbs (by simp [h])
    have hnext : m.drop (8 + (i + 1)) = bs ++ rest := by
      rw [← Nat.add_assoc]
      exact drop_succ_of_cons hm
    have hlen : (c :: bs).length + k = bs.length + k + 1 := by
      rw [List.length_cons]
      omega
    rw [hlen,splitNames,byteAt_drop hm,ok_bind,if_neg hc,ih hnext fun h => hbs (List.mem_cons_of_mem _ h),
      List.length_cons]
    congr 1
    omega

def beginnings (at_ : Nat) : List CString → List Nat
  | [] => []
  | s :: names => at_ :: beginnings (at_ + s.bytes.length + 1) names

theorem joined_cons (s : CString) : joined (s :: names) = s.bytes ++ 0 :: joined names := by
  simp [joined]

theorem splitNames_joined (hm : m.drop (8 + i) = joined names) (hacc : acc.length + names.length = requested) :
    splitNames m requested (joined names).length i (8 + i) acc = .ok (acc ++ beginnings (8 + i) names) := by
  induction names generalizing i acc with
  | nil => simp [joined,splitNames,beginnings,pure_eq_ok]
  | cons s names ih =>
    rw [joined_cons] at hm
    have hlen : (joined (s :: names)).length = s.bytes.length + ((joined names).length + 1) := by
      rw [joined_cons,List.length_append,List.length_cons]
    have hzero : m.drop (8 + (i + s.bytes.length)) = 0 :: joined names := by
      rw [← Nat.add_assoc,← List.drop_drop,hm,List.drop_left]
    have hroom : acc.length < requested := by
      rw [List.length_cons] at hacc
      omega
    rw [hlen,splitNames_scan hm s.unterminated,splitNames,byteAt_drop hzero,ok_bind,if_pos rfl,if_pos hroom]
    simp only [List.length_append,List.length_singleton]
    by_cases hlast : acc.length + 1 = requested
    · have hnil : names = [] := List.length_eq_zero_iff.mp (by
        rw [List.length_cons] at hacc
        omega)
      rw [if_pos hlast,hnil]
      rfl
    · have hnext : m.drop (8 + (i + s.bytes.length + 1)) = joined names := by
        rw [← Nat.add_assoc 8]
        exact drop_succ_of_cons hzero
      rw [if_neg hlast,ih hnext (by
        rw [List.length_append,List.length_singleton]
        rw [List.length_cons] at hacc
        omega),beginnings,List.append_assoc,List.singleton_append,← Nat.add_assoc,← Nat.add_assoc]

theorem stringAt_drop (s : CString) (h : m.drop off = s.bytes ++ 0 :: rest) : stringAt m off = .ok s := by
  rw [stringAt,h,if_pos (by simp),cstring_terminated]

theorem appendNamed_joined {list : List CString} (hm : m.drop off = joined names) (hne : ∀ s ∈ names, s.bytes ≠ []) :
    (beginnings off names).foldlM (appendNamed m) list = .ok (list ++ names) := by
  induction names generalizing off list with
  | nil => simp [beginnings,pure_eq_ok]
  | cons s names ih =>
    rw [joined_cons] at hm
    have hnext : m.drop (off + s.bytes.length + 1) = joined names := by
      refine drop_succ_of_cons (c := 0) ?_
      rw [← List.drop_drop,hm,List.drop_left]
    have hstep : appendNamed m list off = .ok (list ++ [s]) := by
      rw [appendNamed,stringAt_drop s hm,ok_bind,if_neg (hne s (by simp))]
      rfl
    rw [beginnings,List.foldlM_cons,hstep,ok_bind,ih hnext fun t ht => hne t (List.mem_cons_of_mem _ ht),
      List.append_assoc,List.singleton_append]

end Scanning

-- The bytes of a well-formed request.
structure WellFormed (t : EventType) (names : List CString) (body : Bytes) : Prop where
  image : ∃ pad, pad.length = 3 ∧ body = t.code :: pad ++ toNet32 (UInt32.ofNat names.length) ++ joined names
  count : names.length < 4294967296
  named : ∀ s ∈ names, s.bytes ≠ []

section Bodies

variable {t : EventType} {names : List CString} {body : Bytes} {list : List CString}

theorem WellFormed.drop (h : WellFormed t names body) : body.drop 8 = joined names := by
  obtain ⟨pad,hpad,rfl⟩ := h.image
  have hlen : (t.code :: pad ++ toNet32 (UInt32.ofNat names.length)).length = 8 := by
    simp [hpad]
  rw [← hlen,List.drop_left]

theorem WellFormed.length (h : WellFormed t names body) : body.length = 8 + (joined names).length := by
  obtain ⟨pad,hpad,rfl⟩ := h.image
  simp only [List.length_append,List.length_cons,length_toNet32,hpad]

theorem WellFormed.type (h : WellFormed t names body) : (byteAt body 0 : Exec UInt8) = .ok t.code := by
  obtain ⟨pad,_,rfl⟩ := h.image
  exact byteAt_drop (by rfl)

theorem WellFormed.nServices (h : WellFormed t names body) :
    (net32 body 4 : Exec UInt32) = .ok (UInt32.ofNat names.length) := by
  have hlen := h.length
  obtain ⟨pad,hpad,rfl⟩ := h.image
  have hhead : (t.code :: pad).length = 4 := by simp [hpad]
  have hvalue : be32 (t.code :: pad ++ toNet32 (UInt32.ofNat names.length) ++ joined names) 4 =
      UInt32.ofNat names.length := by
    rw [be32,List.append_assoc,slice_append_right _ hhead.le,hhead,slice_append_left (by simp),slice_whole (by simp),
      ofNat_beNat_toNet32]
  rw [net32_inside (by omega),hvalue]

theorem WellFormed.listLength (h : WellFormed t names body) : subSize body.length 8 = (joined names).length := by
  rw [h.length,OpenFlow.subSize_of_le (Nat.le_add_right _ _),Nat.add_sub_cancel_left]

theorem WellFormed.requestedName {s : CString} (h : WellFormed t [s] body) :
    requestedName body (UInt32.ofNat [s].length) = .ok (some s) := by
  have hpos : ¬ (joined [s]).length = 0 := by simp [joined]
  have hjoined : joined [s] = s.bytes ++ 0 :: [] := by simp [joined]
  have htake : cstring ((joined [s]).takeWhile (· ≠ 0)) = s := by
    have hs := cstring_terminated s []
    have hbytes := congrArg CString.bytes hs
    rw [hjoined]
    simp only [cstring] at hbytes
    rw [hbytes,cstring_bytes]
  have hslice : slice body 8 (joined [s]).length = joined [s] := by
    rw [slice,h.drop,List.take_length]
  have hone : ¬ UInt32.ofNat [s].length = 0 := by
    rw [List.length_singleton]
    decide
  rw [EventForward.requestedName,if_neg hone,h.listLength,if_neg hpos,
    strncpy_inside (by rw [h.length]),ok_bind,hslice,htake]
  rfl

theorem entriesSet_wellFormed (h : WellFormed t names body) :
    managementEventForwardEntriesSet body (UInt32.ofNat names.length) = .ok names := by
  have hcount : (UInt32.ofNat names.length).toNat = names.length := Nat.mod_eq_of_lt h.count
  have hsplit : splitNames body names.length (joined names).length 0 (8 + 0) [] = .ok ([] ++ beginnings (8 + 0) names) :=
    splitNames_joined h.drop (Nat.zero_add _)
  rw [managementEventForwardEntriesSet,h.listLength,hcount,hsplit,ok_bind,List.nil_append]
  exact appendNamed_joined h.drop h.named

theorem findListCustom_ok {name : CString} (hne : list ≠ []) :
    findListCustom list name = .ok (list.findIdx? (· = name)) := by
  rw [findListCustom,abortIf,if_neg hne,ok_bind]
  rfl

theorem isSome_findIdx {name : CString} : (list.findIdx? (· = name)).isSome ↔ name ∈ list := by
  simp [List.findIdx?_isSome]

theorem entryAdd_wellFormed {s : CString} (h : WellFormed t [s] body) (hne : list ≠ []) :
    managementEventForwardEntryAdd list body (UInt32.ofNat [s].length) =
      .ok (if s ∈ list then list else list ++ [s]) := by
  rw [managementEventForwardEntryAdd,h.requestedName,ok_bind]
  simp only [findListCustom_ok hne,ok_bind]
  by_cases hs : s ∈ list
  · obtain ⟨i,hi⟩ := Option.isSome_iff_exists.mp (isSome_findIdx.mpr hs)
    rw [hi,if_pos hs]
    rfl
  · have hn : list.findIdx? (· = s) = none := List.findIdx?_eq_none_iff.mpr fun x hx =>
      decide_eq_false (by
        rintro rfl
        exact hs hx)
    rw [hn,if_neg hs]
    rfl

theorem entryDelete_wellFormed {s : CString} (h : WellFormed t [s] body) (hne : list ≠ []) :
    managementEventForwardEntryDelete list body (UInt32.ofNat [s].length) = .ok (list.erase s) := by
  have herase : list.erase s = list.eraseP (· = s) := List.erase_eq_eraseP' s list
  rw [managementEventForwardEntryDelete,h.requestedName,ok_bind]
  simp only [findListCustom_ok hne,ok_bind]
  rw [herase,List.eraseP_eq_eraseIdx]
  cases hi : list.findIdx? (· = s) with
  | none => rfl
  | some i =>
    obtain ⟨hlt,_⟩ := List.findIdx?_eq_some_iff_findIdx_eq.mp hi
    simp only
    rw [deleteElement,if_neg hne,if_pos hlt,ok_bind]
    rfl

end Bodies

end Trema.EventForward
