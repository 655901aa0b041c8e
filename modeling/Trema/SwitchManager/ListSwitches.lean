import Trema.SwitchManager.CookieTable
import Trema.Table.HashWalk
import Mathlib.Data.List.Sort
import Mathlib.Data.Finset.Image

namespace Trema.SwitchManager

open Library
open Table (HashTable LinkedTable KeyFunctions hashCore)

def compareDatapathId (x y : UInt64) : Bool := x == y

def hashDatapathId (key : UInt64) : UInt32 := hashCore (toHost64 key)

-- The key and the value of an entry are one pointer.
abbrev DpidTable := LinkedTable UInt64 UInt64

def initDpidTable : DpidTable := LinkedTable.createHash

def insertDpidEntry (t : DpidTable) (dpid : UInt64) : DpidTable :=
  if (LinkedTable.lookupHashEntry compareDatapathId hashDatapathId t dpid).isSome then t
  else (LinkedTable.insertHashEntry compareDatapathId hashDatapathId t dpid dpid).2

def deleteDpidEntry (t : DpidTable) (dpid : UInt64) : DpidTable :=
  (LinkedTable.deleteHashEntry compareDatapathId hashDatapathId t dpid).2

inductive DpidOperation where
  | insert (dpid : UInt64)
  | delete (dpid : UInt64)

def dpidStep (t : DpidTable) : DpidOperation → DpidTable
  | .insert dpid => insertDpidEntry t dpid
  | .delete dpid => deleteDpidEntry t dpid

def dpidTable (ops : List DpidOperation) : DpidTable := ops.foldl dpidStep initDpidTable

def registeredStep (s : Finset UInt64) : DpidOperation → Finset UInt64
  | .insert dpid => insert dpid s
  | .delete dpid => s.erase dpid

-- The ids inserted and not deleted since.
def registered (ops : List DpidOperation) : Finset UInt64 := ops.foldl registeredStep ∅

def appendDatapathId (e : UInt64 × UInt64) (r : DpidTable × Bytes) : DpidTable × Bytes :=
  (r.1,r.2 ++ toNet64 e.2)

def getSwitches (n : Nat) (t : DpidTable) : Run Empty Bytes :=
  LinkedTable.iterateTable Prod.fst appendDatapathId n (t,[]) >>= fun r => .ok r.2

-- An element of the list of switches is named by the address of its datapath id.
def insertBefore (sibling : Nat) (new : Nat × UInt64) : Chain UInt64 → Chain UInt64
  | e :: e' :: l =>
    if e'.1 = sibling then e :: new :: e' :: l else e :: insertBefore sibling new (e' :: l)
  | l => l

def insertDpid (head : Chain UInt64) (new : Nat × UInt64) : Chain UInt64 :=
  match head.find? fun element => new.2 ≤ element.2 with
  | none => head ++ [new]
  | some element =>
    if Chain.first head = some element.1 then new :: head
    else insertBefore element.1 new head

structure Listing where
  i : UInt32
  switches : Chain UInt64

def numSwitch (data : Bytes) : Nat := data.length / 8

def readDatapathId (data : Bytes) (i : UInt32) : Run Empty UInt64 :=
  load data (8 * i.toNat) 8 >>= fun b => .ok (UInt64.ofNat (beNat b))

def listSwitch (data : Bytes) (s : Listing) : Run Empty Listing :=
  readDatapathId data s.i >>= fun dpid =>
    .ok ⟨s.i + 1,insertDpid s.switches (s.switches.length,dpid)⟩

-- What the callback for a list switches reply is given.
def handleListSwitchesReply (n : Nat) (data : Bytes) : Run Empty (List UInt64) :=
  whileLoop (fun s : Listing => s.i.toNat < numSwitch data) (listSwitch data) n ⟨0,[]⟩ >>=
    fun s => .ok (Chain.contents s.switches)

def listSwitches (n : Nat) (t : DpidTable) : Run Empty (List UInt64) :=
  getSwitches n t >>= handleListSwitchesReply n

theorem datapathId_keys : KeyFunctions compareDatapathId hashDatapathId fun _ => True where
  symm _ _ h := beq_iff_eq.mpr (eq_of_beq h).symm
  trans _ _ _ h h' := by
    rw [compareDatapathId,beq_iff_eq] at *
    exact h.trans h'
  congr _ _ _ h := congrArg hashDatapathId (eq_of_beq h)

section Registration

variable {t : DpidTable} {s : Finset UInt64}

structure Lists (t : DpidTable) (s : Finset UInt64) : Prop where
  valid : t.Valid compareDatapathId hashDatapathId fun _ => True
  sized : t.numberOfBuckets = 65521
  entries : ∀ e, e ∈ Table.foreachHash t.forget ↔ e.1 = e.2 ∧ e.1 ∈ s

theorem lists_init : Lists initDpidTable ∅ :=
  ⟨LinkedTable.createHashWithSize_valid _ _ _ (by decide),rfl,by
    intro e
    simp [initDpidTable,LinkedTable.createHash,LinkedTable.createHashWithSize,LinkedTable.forget,
      Table.foreachHash]⟩

theorem Lists.lookup (h : Lists t s) (dpid : UInt64) :
    (LinkedTable.lookupHashEntry compareDatapathId hashDatapathId t dpid).isSome = true ↔ dpid ∈ s := by
  rw [LinkedTable.lookupHashEntry_forget,Table.lookupHashEntry_eq datapathId_keys h.valid.table,
    Option.isSome_map,List.find?_isSome]
  constructor
  · rintro ⟨e,he,hkey⟩
    rw [compareDatapathId,beq_iff_eq] at hkey
    rw [hkey]
    exact ((h.entries e).mp he).2
  · exact fun hd => ⟨(dpid,dpid),(h.entries _).mpr ⟨rfl,hd⟩,beq_self_eq_true dpid⟩

theorem Lists.insert (h : Lists t s) (dpid : UInt64) :
    Lists (insertDpidEntry t dpid) (registeredStep s (.insert dpid)) := by
  rw [insertDpidEntry,registeredStep]
  split
  · rename_i hold
    rw [Finset.insert_eq_self.mpr ((h.lookup dpid).mp hold)]
    exact h
  · rename_i hnew
    have hnone : Table.lookupHashEntry compareDatapathId hashDatapathId t.forget dpid = none := by
      rw [← LinkedTable.lookupHashEntry_forget]
      simpa using hnew
    refine ⟨LinkedTable.insertHashEntry_valid datapathId_keys h.valid dpid trivial,
      (LinkedTable.numberOfBuckets_insertHashEntry h.valid dpid dpid).trans h.sized,fun e => ?_⟩
    rw [LinkedTable.forget_insertHashEntry datapathId_keys h.valid,
      (Table.foreach_insertHashEntry h.valid.table dpid hnone).mem_iff,List.mem_cons,h.entries,
      Finset.mem_insert]
    constructor
    · rintro (rfl | ⟨heq,hmem⟩)
      · exact ⟨rfl,.inl rfl⟩
      · exact ⟨heq,.inr hmem⟩
    · rintro ⟨heq,hdpid | hmem⟩
      · exact .inl (Prod.ext hdpid (heq.symm.trans hdpid))
      · exact .inr ⟨heq,hmem⟩

theorem Lists.delete (h : Lists t s) (dpid : UInt64) :
    Lists (deleteDpidEntry t dpid) (registeredStep s (.delete dpid)) := by
  refine ⟨LinkedTable.deleteHashEntry_valid datapathId_keys h.valid dpid,
    (LinkedTable.numberOfBuckets_deleteHashEntry h.valid dpid).trans h.sized,fun e => ?_⟩
  rw [deleteDpidEntry,(LinkedTable.forget_deleteHashEntry h.valid dpid).2,
    Table.foreach_deleteHashEntry datapathId_keys h.valid.table,List.mem_filter,h.entries,registeredStep,
    Finset.mem_erase]
  simp only [compareDatapathId,Bool.not_eq_true',beq_eq_false_iff_ne,ne_eq]
  constructor
  · exact fun hm => ⟨hm.1.1,fun heq => hm.2 heq.symm,hm.1.2⟩
  · exact fun hm => ⟨⟨hm.1,hm.2.2⟩,fun heq => hm.2.1 heq.symm⟩

theorem lists_dpidTable (ops : List DpidOperation) : Lists (dpidTable ops) (registered ops) := by
  induction ops using List.reverseRecOn with
  | nil => exact lists_init
  | append_singleton ops op ih =>
    rw [dpidTable,registered,List.foldl_append,List.foldl_append]
    cases op with
    | insert dpid => exact ih.insert dpid
    | delete dpid => exact ih.delete dpid

def datapathIds (t : DpidTable) : List UInt64 := (Table.foreachHash t.forget).map Prod.snd

theorem Lists.mem_datapathIds (h : Lists t s) (d : UInt64) : d ∈ datapathIds t ↔ d ∈ s := by
  rw [datapathIds,List.mem_map]
  constructor
  · rintro ⟨e,he,rfl⟩
    obtain ⟨heq,hmem⟩ := (h.entries e).mp he
    rwa [← heq]
  · exact fun hd => ⟨(d,d),(h.entries _).mpr ⟨rfl,hd⟩,rfl⟩

theorem Lists.nodup_datapathIds (h : Lists t s) : (datapathIds t).Nodup := by
  refine List.pairwise_map.mpr (List.Pairwise.imp_of_mem ?_ (h.valid.table.keys_distinct datapathId_keys))
  intro a b ha hb hne heq
  rw [← ((h.entries a).mp ha).1,← ((h.entries b).mp hb).1] at heq
  exact hne (beq_iff_eq.mpr heq)

theorem Lists.length_datapathIds (h : Lists t s) : (datapathIds t).length = s.card := by
  rw [← List.toFinset_card_of_nodup h.nodup_datapathIds]
  refine congrArg Finset.card (Finset.ext fun d => ?_)
  rw [List.mem_toFinset,h.mem_datapathIds]

theorem appended (es : List (UInt64 × UInt64)) (r : DpidTable × Bytes) :
    es.foldl (fun r e => appendDatapathId e r) r = (r.1,r.2 ++ (es.map Prod.snd).flatMap toNet64) := by
  induction es generalizing r with
  | nil => simp
  | cons e es ih =>
    rw [List.foldl_cons,ih,appendDatapathId,List.map_cons,List.flatMap_cons]
    simp only [List.append_assoc]

theorem Lists.getSwitches (h : Lists t s) :
    ∃ bound, ∀ n, bound ≤ n → getSwitches n t = .ok ((datapathIds t).flatMap toNet64) := by
  have hdeletes : LinkedTable.Deletes compareDatapathId hashDatapathId (fun _ => True) Prod.fst
      appendDatapathId fun r : DpidTable × Bytes => Lists r.1 s :=
    ⟨fun _ hr => hr.valid,fun r i pre cell rest hr hc =>
      ⟨hr,.refl hr.valid i,pre ++ [cell],by simp [appendDatapathId,hc]⟩⟩
  have hsmall : ∀ i ∈ Chain.contents t.nonemptyBucketIndex, i < 2 ^ 31 := by
    intro i hi
    have hlt := LinkedTable.index_lt h.valid hi
    rw [h.sized] at hlt
    exact hlt.trans (by decide)
  refine ⟨(Table.foreachHash t.forget).length + 2,fun n hn => ?_⟩
  have hwalk := (hdeletes.iterateTable (n := n) (s := (t,[])) h hn).1 hsmall
  rw [SwitchManager.getSwitches,hwalk,ok_bind,appended]
  rfl

end Registration

section Listing

variable {c : Chain UInt64}

structure Numbered (c : Chain UInt64) : Prop where
  distinct : (Chain.addresses c).Nodup
  below : ∀ a ∈ Chain.addresses c, a < c.length

theorem insertBefore_split {pre rest : Chain UInt64} {element : Nat × UInt64} (new : Nat × UInt64)
    (hd : (Chain.addresses (pre ++ element :: rest)).Nodup) (hpre : pre ≠ []) :
    insertBefore element.1 new (pre ++ element :: rest) = pre ++ new :: element :: rest := by
  induction pre with
  | nil => exact absurd rfl hpre
  | cons e pre ih =>
    cases pre with
    | nil => exact if_pos rfl
    | cons e' pre =>
      have hne : ¬ e'.1 = element.1 := by
        intro heq
        have hnot := (List.nodup_cons.mp (List.nodup_cons.mp hd).2).1
        exact hnot (by rw [heq]; exact Chain.mem_addresses (by simp))
      rw [List.cons_append,List.cons_append,insertBefore,if_neg hne]
      exact congrArg (e :: ·) (ih (List.nodup_cons.mp hd).2 (by simp))

theorem orderedInsert_split {α : Type} (r : α → α → Prop) [DecidableRel r] {new x : α} {pre rest : List α}
    (hpre : ∀ a ∈ pre, ¬ r new a) (hx : r new x) :
    (pre ++ x :: rest).orderedInsert r new = pre ++ new :: x :: rest := by
  induction pre with
  | nil => exact if_pos hx
  | cons a pre ih =>
    rw [List.cons_append,List.orderedInsert_of_not_le (r := r) _ (hpre a (by simp)),
      ih fun b hb => hpre b (by simp [hb])]
    rfl

theorem orderedInsert_last {α : Type} (r : α → α → Prop) [DecidableRel r] {new : α} {l : List α}
    (h : ∀ a ∈ l, ¬ r new a) : l.orderedInsert r new = l ++ [new] := by
  induction l with
  | nil => rfl
  | cons a l ih =>
    rw [List.orderedInsert_of_not_le (r := r) _ (h a (by simp)),ih fun b hb => h b (by simp [hb])]
    rfl

-- The first element, one in the middle and none: each case has its own helper of the list.
theorem insertDpid_eq (h : (Chain.addresses c).Nodup) (new : Nat × UInt64) :
    insertDpid c new = c.orderedInsert (fun a b => a.2 ≤ b.2) new := by
  rw [insertDpid]
  cases hfind : c.find? fun element => new.2 ≤ element.2 with
  | none =>
    refine (orderedInsert_last _ fun a ha => ?_).symm
    simpa using List.find?_eq_none.mp hfind a ha
  | some element =>
    obtain ⟨hle,pre,rest,rfl,hpre⟩ := List.find?_eq_some_iff_append.mp hfind
    rw [orderedInsert_split (fun a b : Nat × UInt64 => a.2 ≤ b.2) (fun a ha => by simpa using hpre a ha)
      (by simpa using hle)]
    simp only
    split
    · rename_i hfirst
      cases pre with
      | nil => rfl
      | cons a pre =>
        have hnot := (List.nodup_cons.mp h).1
        have hsame : a.1 = element.1 := Option.some.inj hfirst
        exact absurd (by rw [hsame]; exact Chain.mem_addresses (by simp)) hnot
    · rename_i hlater
      refine insertBefore_split new h ?_
      rintro rfl
      exact hlater rfl

theorem contents_insertDpid (h : (Chain.addresses c).Nodup) (new : Nat × UInt64) :
    Chain.contents (insertDpid c new) = (Chain.contents c).orderedInsert (· ≤ ·) new.2 := by
  rw [insertDpid_eq h]
  exact List.map_orderedInsert _ _ Prod.snd c new (fun _ _ => Iff.rfl) fun _ _ => Iff.rfl

theorem Numbered.insert (h : Numbered c) (dpid : UInt64) : Numbered (insertDpid c (c.length,dpid)) := by
  have hperm : (insertDpid c (c.length,dpid)).Perm ((c.length,dpid) :: c) := by
    rw [insertDpid_eq h.distinct]
    exact List.perm_orderedInsert _ _ _
  have haddresses := hperm.map Prod.fst
  refine ⟨haddresses.nodup_iff.mpr (List.nodup_cons.mpr ⟨?_,h.distinct⟩),fun a ha => ?_⟩
  · exact fun hold => absurd (h.below _ hold) (Nat.lt_irrefl _)
  · rw [hperm.length_eq,List.length_cons]
    rcases List.mem_cons.mp (haddresses.mem_iff.mp ha) with rfl | hold
    · exact Nat.lt_succ_self _
    · exact Nat.lt_succ_of_lt (h.below a hold)

theorem length_networked (ds : List UInt64) : (ds.flatMap toNet64).length = 8 * ds.length := by
  induction ds with
  | nil => rfl
  | cons d ds ih =>
    rw [List.flatMap_cons,List.length_append,ih,length_toNet64,List.length_cons]
    omega

theorem numSwitch_networked (ds : List UInt64) : numSwitch (ds.flatMap toNet64) = ds.length := by
  rw [numSwitch,length_networked]
  omega

theorem readDatapathId_networked {pre rest : List UInt64} {d : UInt64} {i : UInt32}
    (hi : i.toNat = pre.length) :
    readDatapathId ((pre ++ d :: rest).flatMap toNet64) i = .ok d := by
  have hbytes : (pre ++ d :: rest).flatMap toNet64 =
      pre.flatMap toNet64 ++ (toNet64 d ++ rest.flatMap toNet64) := by
    rw [List.flatMap_append,List.flatMap_cons]
  have hlength := length_networked pre
  rw [readDatapathId,hbytes,hi,load_ok (by simp [hlength,length_toNet64]),ok_bind,
    slice_append_right _ (by rw [hlength]),hlength,Nat.sub_self,
    slice_append_left (by rw [length_toNet64]),slice_whole (length_toNet64 d),ofNat_beNat_toNet64]

def inOrder (ds : List UInt64) (l : List UInt64) : List UInt64 :=
  ds.foldl (fun l d => l.orderedInsert (· ≤ ·) d) l

theorem listing_loop {ds pre rest : List UInt64} (hds : ds = pre ++ rest) (hlt : ds.length < 2 ^ 32)
    {i : UInt32} (hi : i.toNat = pre.length) (hc : Numbered c) {n : Nat} (hn : rest.length < n) :
    ∃ s, whileLoop (fun s : Listing => s.i.toNat < numSwitch (ds.flatMap toNet64))
        (listSwitch (ds.flatMap toNet64)) n ⟨i,c⟩ = .ok s ∧
      Chain.contents s.switches = inOrder rest (Chain.contents c) := by
  induction rest generalizing pre i c n with
  | nil =>
    obtain ⟨n,rfl⟩ : ∃ m, n = m + 1 := ⟨n - 1,by simp at hn; omega⟩
    refine ⟨⟨i,c⟩,?_,rfl⟩
    rw [whileLoop,numSwitch_networked,hi,hds]
    simp
  | cons d rest ih =>
    obtain ⟨n,rfl⟩ : ∃ m, n = m + 1 := ⟨n - 1,by omega⟩
    have hlength : ds.length = pre.length + (rest.length + 1) := by rw [hds]; simp
    have hnext : (i + 1).toNat = (pre ++ [d]).length := by
      rw [UInt32.toNat_add,hi,List.length_append]
      simp only [UInt32.toNat_one,List.length_cons,List.length_nil]
      omega
    obtain ⟨s,hs,hcontents⟩ := ih (by rw [hds]; exact List.append_cons pre d rest)
      hnext (hc.insert d) (by simpa using hn)
    refine ⟨s,?_,?_⟩
    · have hread : readDatapathId (ds.flatMap toNet64) i = .ok d := by
        rw [hds]
        exact readDatapathId_networked hi
      have hmore : i.toNat < numSwitch (ds.flatMap toNet64) := by
        rw [numSwitch_networked,hi,hlength]
        omega
      rw [whileLoop,if_pos (by simpa using hmore),listSwitch,hread,ok_bind,ok_bind]
      exact hs
    · rw [hcontents,contents_insertDpid hc.distinct]
      rfl

theorem handleListSwitchesReply_small {ds : List UInt64} (hlt : ds.length < 2 ^ 32) {n : Nat}
    (hn : ds.length < n) :
    handleListSwitchesReply n (ds.flatMap toNet64) = .ok (inOrder ds []) := by
  obtain ⟨s,hs,hcontents⟩ := listing_loop (c := []) (List.nil_append ds).symm hlt (i := 0) rfl
    ⟨.nil,by simp [Chain.addresses]⟩ hn
  rw [handleListSwitchesReply,hs,ok_bind,hcontents]
  rfl

-- The counter is 32 bits wide: it never gets to a longer list's length.
theorem handleListSwitchesReply_large {ds : List UInt64} (hge : 2 ^ 32 ≤ ds.length) (n : Nat) :
    handleListSwitchesReply n (ds.flatMap toNet64) = .error .outOfFuel := by
  have hloop : ∀ s : Listing, whileLoop (fun s : Listing => s.i.toNat < numSwitch (ds.flatMap toNet64))
      (listSwitch (ds.flatMap toNet64)) n s = .error .outOfFuel := by
    induction n with
    | zero => exact fun _ => rfl
    | succ n ih =>
      intro s
      have hi : s.i.toNat < ds.length := lt_of_lt_of_le s.i.toNat_lt hge
      have hread : readDatapathId (ds.flatMap toNet64) s.i = .ok ds[s.i.toNat] := by
        have hsplit : ds = ds.take s.i.toNat ++ ds[s.i.toNat] :: ds.drop (s.i.toNat + 1) := by
          rw [← List.drop_eq_getElem_cons hi,List.take_append_drop]
        conv_lhs => rw [hsplit]
        exact readDatapathId_networked (by rw [List.length_take]; omega)
      have hmore : s.i.toNat < numSwitch (ds.flatMap toNet64) := by rwa [numSwitch_networked]
      rw [whileLoop,if_pos (by simpa using hmore),listSwitch,hread,ok_bind,ok_bind]
      exact ih _
  rw [handleListSwitchesReply,hloop]
  rfl

theorem inOrder_perm (ds l : List UInt64) : (inOrder ds l).Perm (ds ++ l) := by
  induction ds generalizing l with
  | nil => exact .refl _
  | cons d ds ih =>
    rw [inOrder,List.foldl_cons]
    refine (ih _).trans ?_
    exact ((List.perm_orderedInsert _ d l).append_left ds).trans List.perm_middle

theorem inOrder_sorted (ds : List UInt64) {l : List UInt64} (h : l.Pairwise (· ≤ ·)) :
    (inOrder ds l).Pairwise (· ≤ ·) := by
  induction ds generalizing l with
  | nil => exact h
  | cons d ds ih => exact ih (h.orderedInsert d l)

end Listing

-- The list the callback is given, where it is called, is the one asked for.
def Delivers (t : DpidTable) (s : Finset UInt64) : Prop :=
  ∃ n, ∀ m, n ≤ m → ∃ l, listSwitches m t = .ok l ∧ l.Pairwise (· < ·) ∧ ∀ d, d ∈ l ↔ d ∈ s

theorem Lists.delivers_iff {t : DpidTable} {s : Finset UInt64} (h : Lists t s) :
    Delivers t s ↔ s.card < 2 ^ 32 := by
  obtain ⟨bound,hget⟩ := h.getSwitches
  have hlength := h.length_datapathIds
  constructor
  · rintro ⟨n,hn⟩
    by_contra hge
    obtain ⟨l,hl,-⟩ := hn (max n bound) (Nat.le_max_left _ _)
    rw [listSwitches,hget _ (Nat.le_max_right _ _),ok_bind,
      handleListSwitchesReply_large (by omega)] at hl
    exact absurd hl (by simp)
  · intro hlt
    refine ⟨max bound (s.card + 1),fun m hm => ⟨inOrder (datapathIds t) [],?_,?_,fun d => ?_⟩⟩
    · rw [listSwitches,hget _ (le_trans (Nat.le_max_left _ _) hm),ok_bind]
      exact handleListSwitchesReply_small (by omega)
        (by have := le_trans (Nat.le_max_right bound (s.card + 1)) hm; omega)
    · have hnodup : (inOrder (datapathIds t) []).Nodup := by
        rw [(inOrder_perm _ _).nodup_iff,List.append_nil]
        exact h.nodup_datapathIds
      exact (inOrder_sorted (datapathIds t) .nil).imp₂ (fun _ _ hle hne => UInt64.lt_of_le_of_ne hle hne) hnodup
    · rw [(inOrder_perm _ _).mem_iff,List.append_nil,h.mem_datapathIds]

theorem list_switches_iff (ops : List DpidOperation) :
    Delivers (dpidTable ops) (registered ops) ↔ (registered ops).card < 2 ^ 32 :=
  (lists_dpidTable ops).delivers_iff

section Instances

def serialSwitches (size : Nat) : List DpidOperation :=
  (List.range size).map fun i => .insert (UInt64.ofNat i)

theorem registered_serial {size : Nat} (h : size < 2 ^ 64) :
    (registered (serialSwitches size)).card = size := by
  have hset : registered (serialSwitches size) = (Finset.range size).image UInt64.ofNat := by
    induction size with
    | zero => rfl
    | succ size ih =>
      rw [serialSwitches,List.range_succ,List.map_append,registered,List.foldl_append]
      change registeredStep (registered (serialSwitches size)) (.insert (UInt64.ofNat size)) = _
      rw [ih (by omega),registeredStep,Finset.range_add_one,Finset.image_insert]
  rw [hset,Finset.card_image_of_injOn,Finset.card_range]
  intro i hi j hj heq
  rw [Finset.coe_range,Set.mem_Iio] at hi hj
  have hnat := congrArg UInt64.toNat heq
  rwa [UInt64.toNat_ofNat_of_lt' (hi.trans h),UInt64.toNat_ofNat_of_lt' (hj.trans h)] at hnat

theorem crowded_list_not_delivered :
    ¬ Delivers (dpidTable (serialSwitches 4294967296)) (registered (serialSwitches 4294967296)) := by
  rw [(lists_dpidTable _).delivers_iff,registered_serial (by decide)]
  decide

end Instances

end Trema.SwitchManager
