import Trema.PacketinFilter.Dump

namespace Trema.PacketinFilter

open Library
open OpenFlow (OfpMatch matchFields netMatch xmalloc length_netMatch)
open Table

section Blocks

variable {older : List Bytes} {x : Bytes}

theorem modify_last (older : List Bytes) (x : Bytes) (f : Bytes → Bytes) :
    (older ++ [x]).modify older.length f = older ++ [f x] := by
  induction older with
  | nil => rfl
  | cons b older ih =>
    change b :: (older ++ [x]).modify older.length f = b :: (older ++ [f x])
    rw [ih]

theorem modify_older {b : Nat} (hb : b < older.length) (x : Bytes) (f : Bytes → Bytes) :
    (older ++ [x]).modify b f = older.modify b f ++ [x] := by
  induction older generalizing b with
  | nil => exact absurd hb (by simp)
  | cons c older ih =>
    cases b with
    | zero => rfl
    | succ b =>
      change c :: (older ++ [x]).modify b f = c :: (older.modify b f ++ [x])
      rw [ih (by simpa using hb)]

end Blocks

section Held

variable {heap : Nat → UInt8} {older : List Bytes} {count body rest : Bytes}

def image (count body rest : Bytes) : Bytes := [0] ++ count ++ body ++ rest

def held (older : List Bytes) (count body rest : Bytes) : Memory :=
  ⟨older ++ [image count body rest],
    ⟨⟨older.length,0⟩,5 + body.length,older.length,5 + body.length + rest.length⟩⟩

theorem slice_image {count : Bytes} (hcount : count.length = 4) (body rest : Bytes) :
    slice (image count body rest) 0 (5 + body.length) = [0] ++ count ++ body := by
  rw [image,slice_append_left (by simp [hcount]; omega)]
  exact slice_whole (by simp [hcount]; omega)

theorem block_held (older : List Bytes) (count body rest : Bytes) (off : Nat) :
    (held older count body rest).block ⟨older.length,off⟩ = image count body rest := by
  simp [held,Memory.block]

theorem nEntries_held (older : List Bytes) (n : UInt32) (body rest : Bytes) :
    nEntries (held older (toHost32 n) body rest) ⟨older.length,0⟩ = n := by
  rw [nEntries,block_held,host32,image,List.append_assoc,List.append_assoc,
    slice_append_right _ (by simp),slice_append_left (by simp)]
  simp [slice_whole]

theorem setNEntries_held {v : Bytes} (hc : count.length = 4) (hv : v.length = 4) :
    setNEntries (held older count body rest) ⟨older.length,0⟩ v = held older v body rest := by
  have hblock : overwrite (image count body rest) (0 + 1) v = image v body rest := by
    rw [overwrite_mid [0] count (body ++ rest) (by simp [image]) (by simp) (hv.trans hc.symm)]
    simp [image]
  rw [setNEntries,Memory.write]
  simp only [held,modify_last,hblock]

theorem setNEntries_older {b : Nat} (hb : b < older.length) (v : Bytes) :
    setNEntries (held older count body rest) ⟨b,0⟩ v =
      held (older.modify b fun x => overwrite x 1 v) count body rest := by
  rw [setNEntries,Memory.write]
  simp only [held,modify_older hb,List.length_modify,Nat.zero_add]

def appended (older : List Bytes) (count body rest : Bytes) : Memory :=
  { held older count body rest with
    buf := { (held older count body rest).buf with length := 5 + body.length + 74 } }

theorem appendBackBuffer_room (hroom : 74 ≤ rest.length) :
    appendBackBuffer heap (held older count body rest) 74 =
      (⟨older.length,0 + (5 + body.length)⟩,appended older count body rest) := by
  have hreal : (held older count body rest).buf.realLength ≠ 0 := by
    simp only [held]
    omega
  have hfits : alreadyAllocated (held older count body rest).buf 74 = true := by
    rw [alreadyAllocated,decide_eq_true_eq]
    simp only [frontLengthOf,held]
    omega
  simp only [appendBackBuffer,if_neg hreal,if_pos hfits]
  rfl

theorem write_appended {entry : Bytes} (hcount : count.length = 4) (he : entry.length = 74)
    (hroom : 74 ≤ rest.length) :
    (appended older count body rest).write ⟨older.length,0 + (5 + body.length)⟩ entry =
      held older count (body ++ entry) (rest.drop 74) := by
  have hblock : overwrite (image count body rest) (0 + (5 + body.length)) entry =
      image count (body ++ entry) (rest.drop 74) := by
    rw [overwrite_mid ([0] ++ count ++ body) (rest.take 74) (rest.drop 74) (by simp [image])
      (by simp [hcount]; omega) (by simp [he]; omega)]
    simp [image]
  simp only [appended,Memory.write,held,modify_last]
  rw [hblock]
  simp only [List.length_append,List.length_drop,he]
  congr 2
  omega

theorem append_room {entry : Bytes} (hcount : count.length = 4) (he : entry.length = 74)
    (hroom : 74 ≤ rest.length) :
    (match appendBackBuffer heap (held older count body rest) 74 with
      | (p,d) => d.write p entry) = held older count (body ++ entry) (rest.drop 74) := by
  rw [appendBackBuffer_room hroom]
  exact write_appended hcount he hroom

theorem append_full {entry : Bytes} (hcount : count.length = 4) (he : entry.length = 74)
    (hfull : rest.length < 74) :
    (match appendBackBuffer heap (held older count body rest) 74 with
      | (p,d) => d.write p entry) =
        held (older ++ [image count body rest]) count (body ++ entry) [] := by
  have hreal : (held older count body rest).buf.realLength ≠ 0 := by
    simp only [held]
    omega
  have hfits : ¬ alreadyAllocated (held older count body rest).buf 74 = true := by
    rw [alreadyAllocated,decide_eq_true_eq]
    simp only [frontLengthOf,held]
    omega
  have hcopied := slice_image hcount body rest
  simp only [appendBackBuffer,if_neg hreal,if_neg hfits,appendBack,frontLengthOf]
  have hdata : (held older count body rest).block (held older count body rest).buf.data =
      image count body rest := block_held _ _ _ _ _
  rw [hdata]
  simp only [held,hcopied]
  simp only [Memory.write,modify_last]
  have hnew : overwrite (xmalloc heap (0 + (5 + body.length) + 74)) 0 ([0] ++ count ++ body) =
      [0] ++ count ++ body ++ (xmalloc heap (0 + (5 + body.length) + 74)).drop (5 + body.length) := by
    rw [overwrite,List.take_zero,List.nil_append]
    congr 2
    simp [hcount]
    omega
  have hblock : overwrite (overwrite (xmalloc heap (0 + (5 + body.length) + 74)) 0
      ([0] ++ count ++ body)) (0 + (5 + body.length)) entry = image count (body ++ entry) [] := by
    rw [hnew,overwrite_mid ([0] ++ count ++ body)
      ((xmalloc heap (0 + (5 + body.length) + 74)).drop (5 + body.length)) [] (by simp)
      (by simp [hcount]; omega) (by simp [xmalloc,he])]
    simp [image]
  rw [hblock]
  simp only [List.length_append,List.length_singleton,List.length_nil,he]
  congr 2
  omega

end Held

section Walk

variable (heap : Nat → UInt8) (m : OfpMatch) (priority : UInt16) {older : List Bytes}
  {body rest : Bytes}

theorem length_serviceNameField (serviceName : CString) :
    (serviceNameField serviceName).length = 32 := by
  simp [serviceNameField,strncpy]
  omega

theorem length_entryBytes (serviceName : CString) :
    (entryBytes m priority serviceName).length = 74 := by
  simp [entryBytes,length_serviceNameField]

def entriesOf (m : OfpMatch) (priority : UInt16) (services : List CString) : Bytes :=
  services.flatMap (entryBytes m priority)

-- The storage starts at 2048 bytes, 5 of them for the header; an entry has 74.
def spare (k : Nat) : Nat := if k ≤ 27 then 2043 - 74 * k else 0

-- How many of an entry's services are counted when `k` triples stand before them: all of them up to
-- the one whose append moves the storage.
def counted : Nat → Nat → Nat
  | _, 0 => 0
  | k, l + 1 => if k < 27 then counted (k + 1) l + 1 else 1

theorem dumpService_room {n : UInt32} (hroom : 74 ≤ rest.length) (serviceName : CString) :
    dumpService heap m priority ⟨older.length,0⟩ (held older (toHost32 n) body rest) serviceName =
      held older (toHost32 (n + 1)) (body ++ entryBytes m priority serviceName) (rest.drop 74) := by
  rw [dumpService,nEntries_held,setNEntries_held (by simp) (by simp)]
  exact append_room (by simp) (length_entryBytes _ _ _) hroom

theorem dumpService_full {n : UInt32} (hfull : rest.length < 74) (serviceName : CString) :
    dumpService heap m priority ⟨older.length,0⟩ (held older (toHost32 n) body rest) serviceName =
      held (older ++ [image (toHost32 (n + 1)) body rest]) (toHost32 (n + 1))
        (body ++ entryBytes m priority serviceName) [] := by
  rw [dumpService,nEntries_held,setNEntries_held (by simp) (by simp)]
  exact append_full (by simp) (length_entryBytes _ _ _) hfull

theorem dumpService_stale {count : Bytes} {b : Nat} (hcount : count.length = 4)
    (hb : b < older.length) (body : Bytes) (serviceName : CString) :
    ∃ older', older.length < older'.length ∧
      dumpService heap m priority ⟨b,0⟩ (held older count body []) serviceName =
        held older' count (body ++ entryBytes m priority serviceName) [] := by
  have hstep : dumpService heap m priority ⟨b,0⟩ (held older count body []) serviceName =
      held (older.modify b (fun x => overwrite x 1
          (toHost32 (nEntries (held older count body []) ⟨b,0⟩ + 1))) ++ [image count body []]) count
        (body ++ entryBytes m priority serviceName) [] := by
    rw [dumpService,setNEntries_older hb]
    exact append_full hcount (length_entryBytes _ _ _) (by simp)
  exact ⟨_,by simp,hstep⟩

theorem dump_stale {count : Bytes} {b : Nat} (hcount : count.length = 4) (hb : b < older.length)
    (body : Bytes) (services : List CString) :
    ∃ older', older.length ≤ older'.length ∧
      services.foldl (dumpService heap m priority ⟨b,0⟩) (held older count body []) =
        held older' count (body ++ entriesOf m priority services) [] := by
  induction services generalizing older body with
  | nil => exact ⟨older,le_rfl,by simp [entriesOf]⟩
  | cons serviceName services ih =>
    obtain ⟨older₁,hlt,hstep⟩ := dumpService_stale heap m priority hcount hb body serviceName
    obtain ⟨older₂,hle,hrest⟩ := ih (hb.trans hlt) (body ++ entryBytes m priority serviceName)
    refine ⟨older₂,hlt.le.trans hle,?_⟩
    rw [List.foldl_cons,hstep,hrest,entriesOf,entriesOf,List.flatMap_cons,List.append_assoc]

theorem dump_fresh {k : Nat} (hrest : rest.length = spare k) (holder : older = [] ↔ k ≤ 27)
    (n : UInt32) (body : Bytes) (services : List CString) :
    ∃ older' rest', rest'.length = spare (k + services.length) ∧
      (older' = [] ↔ k + services.length ≤ 27) ∧
      services.foldl (dumpService heap m priority ⟨older.length,0⟩)
        (held older (toHost32 n) body rest) =
          held older' (toHost32 (n + UInt32.ofNat (counted k services.length)))
            (body ++ entriesOf m priority services) rest' := by
  induction services generalizing older n body rest k with
  | nil => exact ⟨older,rest,hrest,holder,by simp [entriesOf,counted]⟩
  | cons serviceName services ih =>
    rw [List.foldl_cons,List.length_cons,counted]
    by_cases hk : k < 27
    · have hroom : 74 ≤ rest.length := by
        rw [hrest,spare,if_pos (by omega)]
        omega
      have hspare : (rest.drop 74).length = spare (k + 1) := by
        rw [List.length_drop,hrest,spare,spare,if_pos (by omega),if_pos (by omega)]
        omega
      have hfirst : older = [] ↔ k + 1 ≤ 27 := ⟨fun _ => by omega,fun _ => holder.mpr (by omega)⟩
      obtain ⟨older',rest',hlen,hnil,heq⟩ := ih hspare hfirst (n + 1)
        (body ++ entryBytes m priority serviceName)
      refine ⟨older',rest',?_,?_,?_⟩
      · rw [hlen,Nat.add_right_comm,Nat.add_assoc]
      · rw [hnil,Nat.add_right_comm,Nat.add_assoc]
      · rw [dumpService_room heap m priority hroom,heq,if_pos hk,entriesOf,entriesOf,
          List.flatMap_cons,List.append_assoc]
        congr 2
        rw [UInt32.ofNat_add,UInt32.add_assoc,UInt32.add_comm 1]
        rfl
    · have hfull : rest.length < 74 := by
        rw [hrest,spare]
        split <;> omega
      rw [dumpService_full heap m priority hfull,if_neg hk]
      have hold : older.length < (older ++ [image (toHost32 (n + 1)) body rest]).length := by simp
      obtain ⟨older',hlen,heq⟩ := dump_stale heap m priority (length_toHost32 (n + 1)) hold
        (body ++ entryBytes m priority serviceName) services
      refine ⟨older',[],?_,?_,?_⟩
      · rw [spare,if_neg (by omega)]
        rfl
      · refine iff_of_false ?_ (by omega)
        rintro rfl
        simp at hlen
      · rw [heq,entriesOf,entriesOf,List.flatMap_cons,List.append_assoc]
        rfl

def countedIn : Nat → List Nat → Nat
  | _, [] => 0
  | k, l :: ls => counted k l + countedIn (k + l) ls

-- How many of the entries end behind the last triple the first storage has room for.
def pastRoom : Nat → List Nat → Nat
  | _, [] => 0
  | k, l :: ls => (if 27 < k + l then 1 else 0) + pastRoom (k + l) ls

theorem counted_within {k l : Nat} (h : k + l ≤ 27) : counted k l = l := by
  induction l generalizing k with
  | zero => rfl
  | succ l ih => rw [counted,if_pos (by omega),ih (by omega)]

theorem counted_across {k l : Nat} (hk : k ≤ 27) (h : 27 < k + l) : k + counted k l = 28 := by
  induction l generalizing k with
  | zero => omega
  | succ l ih =>
    rw [counted]
    split
    · have hnext := ih (k := k + 1) (by omega) (by omega)
      omega
    · omega

theorem countedIn_behind {k : Nat} {ls : List Nat} (hk : 27 < k) (hpos : ∀ l ∈ ls, 0 < l) :
    countedIn k ls = pastRoom k ls := by
  induction ls generalizing k with
  | nil => rfl
  | cons l ls ih =>
    have hl := hpos l (by simp)
    obtain ⟨l,rfl⟩ := Nat.exists_eq_succ_of_ne_zero hl.ne'
    rw [countedIn,pastRoom,counted,if_neg (by omega),if_pos (by omega),
      ih (by omega) fun a ha => hpos a (by simp [ha])]

theorem countedIn_within {k : Nat} {ls : List Nat} (h : k + ls.sum ≤ 27) :
    countedIn k ls = ls.sum := by
  induction ls generalizing k with
  | nil => rfl
  | cons l ls ih =>
    rw [List.sum_cons] at h ⊢
    rw [countedIn,counted_within (by omega),ih (by omega)]

theorem countedIn_across {k : Nat} {ls : List Nat} (hk : k ≤ 27) (h : 27 < k + ls.sum)
    (hpos : ∀ l ∈ ls, 0 < l) : k + countedIn k ls = 27 + pastRoom k ls := by
  induction ls generalizing k with
  | nil =>
    rw [List.sum_nil] at h
    omega
  | cons l ls ih =>
    have hpos' : ∀ a ∈ ls, 0 < a := fun a ha => hpos a (by simp [ha])
    rw [List.sum_cons] at h
    rw [countedIn,pastRoom]
    by_cases hkl : k + l ≤ 27
    · have hnext := ih hkl (by omega) hpos'
      rw [counted_within hkl,if_neg (by omega)]
      omega
    · have hnow := counted_across hk (by omega : 27 < k + l)
      rw [if_pos (by omega),countedIn_behind (by omega) hpos']
      omega

def sizes (es : List (MatchEntry (List CString))) : List Nat := es.map fun e => e.data.length

def bodyOf (es : List (MatchEntry (List CString))) : Bytes :=
  es.flatMap fun e => entriesOf e.mtch e.priority e.data

theorem dump_entries {k : Nat} (hrest : rest.length = spare k) (holder : older = [] ↔ k ≤ 27)
    (n : UInt32) (body : Bytes) (es : List (MatchEntry (List CString))) :
    ∃ older' rest', (older' = [] ↔ k + (sizes es).sum ≤ 27) ∧
      es.foldl (fun d e => dumpFilterWalker heap e.mtch e.priority e.data d)
        (held older (toHost32 n) body rest) =
          held older' (toHost32 (n + UInt32.ofNat (countedIn k (sizes es)))) (body ++ bodyOf es) rest' := by
  induction es generalizing older n body rest k with
  | nil => exact ⟨older,rest,holder,by simp [bodyOf,sizes,countedIn]⟩
  | cons e es ih =>
    obtain ⟨older₁,rest₁,hlen,hnil,heq⟩ := dump_fresh heap e.mtch e.priority hrest holder n body e.data
    obtain ⟨older₂,rest₂,hnil₂,heq₂⟩ := ih hlen hnil (n + UInt32.ofNat (counted k e.data.length))
      (body ++ entriesOf e.mtch e.priority e.data)
    refine ⟨older₂,rest₂,?_,?_⟩
    · rw [hnil₂,sizes,sizes,List.map_cons,List.sum_cons,Nat.add_assoc]
    · rw [List.foldl_cons,dumpFilterWalker]
      have hdata : (held older (toHost32 n) body rest).buf.data = ⟨older.length,0⟩ := rfl
      rw [hdata,heq,heq₂,bodyOf,bodyOf,List.flatMap_cons,List.append_assoc,UInt32.add_assoc,
        ← UInt32.ofNat_add]
      rfl

theorem mapMatchTable_dump (t : FilterTable) (criteria : OfpMatch) (d : Memory) :
    mapMatchTable (some criteria) (fun _ => t) (dumpFilterWalker heap) d =
      ((tableEntries t).filter fun e => compareFilterMatch criteria e.mtch).foldl
        (fun d e => dumpFilterWalker heap e.mtch e.priority e.data d) d := by
  rw [mapMatchTable,← List.foldl_append,List.foldl_filter]
  rfl

end Walk

section Answer

variable (heap : Nat → UInt8)

theorem overwrite_start (x : Bytes) :
    overwrite (overwrite x 0 [0]) 1 (toHost32 0) = image (toHost32 0) [] (x.drop 5) := by
  have hfirst : overwrite x 0 [0] = 0 :: x.drop 1 := rfl
  rw [hfirst,overwrite,length_toHost32,image,List.append_nil]
  change [0] ++ toHost32 0 ++ (x.drop 1).drop 4 = _
  rw [List.drop_drop]

theorem start_held :
    ∃ rest, rest.length = 2043 ∧
      (appendBackBuffer heap (allocBufferWithLength heap 2048) 5).1 = ⟨0,0⟩ ∧
      setNEntries ((appendBackBuffer heap (allocBufferWithLength heap 2048) 5).2.write ⟨0,0⟩ [0])
        ⟨0,0⟩ (toHost32 0) = held [] (toHost32 0) [] rest := by
  refine ⟨(xmalloc heap 2048).drop 5,by simp [xmalloc],rfl,?_⟩
  have hlen : (xmalloc heap 2048).length = 2048 := by simp [xmalloc]
  simp only [appendBackBuffer,allocBufferWithLength,alreadyAllocated,frontLengthOf,setNEntries,
    Memory.write,held]
  simp [overwrite_start,hlen]

def answer (d : Memory) : Bytes :=
  let d := setNEntries d ⟨0,0⟩ (toNet32 (nEntries d ⟨0,0⟩))
  slice (d.block d.buf.data) d.buf.data.offset d.buf.length

theorem answer_first (n : UInt32) (body rest : Bytes) :
    answer (held [] (toHost32 n) body rest) = [0] ++ toNet32 n ++ body := by
  have hn : nEntries (held [] (toHost32 n) body rest) ⟨0,0⟩ = n := nEntries_held [] n body rest
  have hset : setNEntries (held [] (toHost32 n) body rest) ⟨0,0⟩ (toNet32 n) =
      held [] (toNet32 n) body rest :=
    setNEntries_held (length_toHost32 n) (length_toNet32 n)
  rw [answer,hn,hset]
  exact slice_image (length_toNet32 n) body rest

theorem answer_moved {older : List Bytes} (holder : older ≠ []) (n : UInt32) (body rest : Bytes) :
    answer (held older (toHost32 n) body rest) = [0] ++ toHost32 n ++ body := by
  rw [answer,setNEntries_older (List.length_pos_of_ne_nil holder)]
  have hdata : ∀ older, (held older (toHost32 n) body rest).block
      (held older (toHost32 n) body rest).buf.data = image (toHost32 n) body rest :=
    fun older => block_held older _ _ _ _
  rw [hdata]
  exact slice_image (length_toHost32 n) body rest

def total (es : List (MatchEntry (List CString))) : Nat := (sizes es).sum

def countField (es : List (MatchEntry (List CString))) : Bytes :=
  if total es ≤ 27 then toNet32 (UInt32.ofNat (total es))
  else toHost32 (UInt32.ofNat (27 + pastRoom 0 (sizes es)))

theorem loose_reply (t : FilterTable) {criteria : Criteria} (hloose : criteria.strict = false)
    (hsome : ∀ e ∈ selectedEntries t criteria, e.data ≠ []) :
    handleDumpFilterRequest heap t criteria =
      [0] ++ countField (selectedEntries t criteria) ++ bodyOf (selectedEntries t criteria) := by
  obtain ⟨rest,hrest,hreply,hstart⟩ := start_held heap
  have hselected : (tableEntries t).filter (fun e => compareFilterMatch criteria.mtch e.mtch) =
      selectedEntries t criteria := by simp [selectedEntries,hloose]
  have hfirst : ([] : List Bytes) = [] ↔ 0 ≤ 27 := by simp
  obtain ⟨older',rest',hnil,hwalk⟩ := dump_entries heap (k := 0) (hrest.trans rfl) hfirst 0 []
    (selectedEntries t criteria)
  have hpos : ∀ l ∈ sizes (selectedEntries t criteria), 0 < l := by
    intro l hl
    obtain ⟨e,he,rfl⟩ := List.mem_map.mp hl
    exact List.length_pos_of_ne_nil (hsome e he)
  have hreq : handleDumpFilterRequest heap t criteria = answer (mapMatchTable (some criteria.mtch)
      (fun _ => t) (dumpFilterWalker heap) (held [] (toHost32 0) [] rest)) := by
    rw [← hstart]
    simp only [handleDumpFilterRequest,hloose]
    rfl
  rw [hreq,mapMatchTable_dump,hselected,hwalk,List.nil_append,UInt32.zero_add,countField,total]
  rw [Nat.zero_add] at hnil
  by_cases hk : (sizes (selectedEntries t criteria)).sum ≤ 27
  · rw [hnil.mpr hk,answer_first,if_pos hk,countedIn_within (by omega)]
  · have hcount := countedIn_across (k := 0) (by omega) (by omega) hpos
    rw [Nat.zero_add] at hcount
    rw [answer_moved (fun h => hk (hnil.mp h)),if_neg hk,hcount]

theorem dumpStrictService_room {criteria : Criteria} {n : UInt32} {body rest : Bytes}
    (hroom : 74 ≤ rest.length) :
    dumpStrictService heap criteria ⟨0,0⟩ (held [] (toHost32 n) body rest) criteria.serviceName =
      held [] (toHost32 (n + 1))
        (body ++ entryBytes criteria.mtch criteria.priority criteria.serviceName) (rest.drop 74) := by
  have hn : nEntries (appended [] (toHost32 n) body rest) ⟨0,0⟩ = n := nEntries_held [] n body rest
  have hset : setNEntries (appended [] (toHost32 n) body rest) ⟨0,0⟩ (toHost32 (n + 1)) =
      appended [] (toHost32 (n + 1)) body rest := by
    have hblocks : (setNEntries (held [] (toHost32 n) body rest) ⟨0,0⟩ (toHost32 (n + 1))).blocks =
        (held [] (toHost32 (n + 1)) body rest).blocks :=
      congrArg Memory.blocks (setNEntries_held (length_toHost32 n) (length_toHost32 (n + 1)))
    exact congrArg (Memory.mk · (appended [] (toHost32 n) body rest).buf) hblocks
  rw [dumpStrictService,if_pos rfl,appendBackBuffer_room hroom]
  simp only [hn,hset]
  exact write_appended (length_toHost32 _) (length_entryBytes _ _ _) hroom

def answered (criteria : Criteria) (services : List CString) : List CString :=
  services.filter fun s => s == criteria.serviceName

theorem answered_nodup (criteria : Criteria) {services : List CString} (h : services.Nodup) :
    answered criteria services = [] ∨ answered criteria services = [criteria.serviceName] := by
  rw [answered,List.filter_beq]
  by_cases hmem : criteria.serviceName ∈ services
  · rw [List.count_eq_one_of_mem h hmem]
    exact .inr rfl
  · rw [List.count_eq_zero_of_not_mem hmem]
    exact .inl rfl

theorem foldl_dumpStrictService (criteria : Criteria) (reply : Pointer) (services : List CString)
    (d : Memory) : services.foldl (dumpStrictService heap criteria reply) d =
      (answered criteria services).foldl (dumpStrictService heap criteria reply) d := by
  induction services generalizing d with
  | nil => rfl
  | cons s services ih =>
    rw [List.foldl_cons,ih,answered,answered]
    by_cases hs : s = criteria.serviceName
    · rw [List.filter_cons_of_pos (by simp [hs]),List.foldl_cons]
    · rw [List.filter_cons_of_neg (by simp [hs]),dumpStrictService,if_neg hs]

theorem strict_reply (t : FilterTable) {criteria : Criteria} (hstrict : criteria.strict = true)
    (hnodup : (lookupMatchStrictEntry t criteria.mtch criteria.priority).Nodup) :
    let services := answered criteria (lookupMatchStrictEntry t criteria.mtch criteria.priority)
    handleDumpFilterRequest heap t criteria = [0] ++ toNet32 (UInt32.ofNat services.length) ++
      entriesOf criteria.mtch criteria.priority services := by
  intro services
  obtain ⟨rest,hrest,hreply,hstart⟩ := start_held heap
  have hreq : handleDumpFilterRequest heap t criteria =
      answer (services.foldl (dumpStrictService heap criteria ⟨0,0⟩)
        (held [] (toHost32 0) [] rest)) := by
    rw [← hstart,← foldl_dumpStrictService]
    simp only [handleDumpFilterRequest,hstrict]
    rfl
  rw [hreq]
  have hcases : services = [] ∨ services = [criteria.serviceName] := answered_nodup criteria hnodup
  rcases hcases with hnone | hone
  · rw [hnone,List.foldl_nil,answer_first]
    rfl
  · have hcount : (0 + 1 : UInt32) = UInt32.ofNat [criteria.serviceName].length := rfl
    rw [hone,List.foldl_cons,List.foldl_nil,dumpStrictService_room heap (by omega),answer_first,
      entriesOf,List.flatMap_singleton,hcount,List.nil_append]

end Answer

end Trema.PacketinFilter
