import Trema.OpenFlow.Termination
import Trema.OpenFlow.Blocks

namespace Trema.OpenFlow

open Library Layout

structure Tiles (off : Nat) (region : Bytes) (blocks : List Bytes) : Prop where
  whole : region = blocks.flatten
  lens : ∀ b ∈ blocks, off + 2 ≤ b.length ∧ (be16 b off).toNat = b.length

def StartsBlock (blocks : List Bytes) (pos : Nat) (b : Bytes) : Prop :=
  ∃ pre rest, blocks = pre ++ b :: rest ∧ pos = pre.flatten.length

section Boundaries

variable {blocks : List Bytes} {pos : Nat} {b : Bytes}

theorem StartsBlock.mem (h : StartsBlock blocks pos b) : b ∈ blocks := by
  obtain ⟨pre,rest,rfl,_⟩ := h
  simp

theorem StartsBlock.le (h : StartsBlock blocks pos b) :
    pos + b.length ≤ blocks.flatten.length := by
  obtain ⟨pre,rest,rfl,rfl⟩ := h
  simp only [List.flatten_append,List.flatten_cons,List.length_append]
  omega

theorem StartsBlock.holds {m : Bytes} {p : Nat} (h : StartsBlock blocks pos b)
    (hm : Holds m p blocks.flatten) : Holds m (p + pos) b := by
  obtain ⟨pre,rest,rfl,rfl⟩ := h
  rw [List.flatten_append,List.flatten_cons] at hm
  exact (Holds.append.mp (Holds.append.mp hm).2).1

variable {σ : Type} {elem : σ → Nat → Prop} {next : σ → Nat → σ}

theorem walk_on_blocks (blocks : List Bytes) (place : σ → Nat) (good : σ → Prop)
    (hinside : ∀ s len, good s → elem s len → place s < blocks.flatten.length)
    (hread : ∀ s len b, good s → elem s len → StartsBlock blocks (place s) b → len = b.length)
    (hnext : ∀ s len, good s → elem s len → place s + len ≤ blocks.flatten.length →
      good (next s len) ∧ place (next s len) = place s + len)
    {s t : σ} {ls : List Nat} {len : Nat} (hw : Walk elem next s ls t) (hs : good s)
    (h0 : place s = 0) (he : elem t len) :
    good t ∧ ∃ b, StartsBlock blocks (place t) b ∧ len = b.length := by
  have hstarts : ∀ {u k}, good u → elem u k → ∀ pre post, blocks = pre ++ post →
      place u = pre.flatten.length → ∃ c rest, post = c :: rest ∧ k = c.length := by
    intro u k hu hk pre post hsplit hat
    cases post with
    | nil =>
      have hlt := hinside u k hu hk
      rw [hsplit,List.append_nil] at hlt
      omega
    | cons c rest => exact ⟨c,rest,rfl,hread u k c hu hk ⟨pre,rest,hsplit,hat⟩⟩
  have hinv : ∀ {u v ks}, Walk elem next u ks v → good u →
      (∃ pre post, blocks = pre ++ post ∧ place u = pre.flatten.length) →
      good v ∧ ∃ pre post, blocks = pre ++ post ∧ place v = pre.flatten.length := by
    intro u v ks hwalk hu hb
    induction hwalk with
    | nil u => exact ⟨hu,hb⟩
    | @cons u v k ks hk _ ih =>
      obtain ⟨pre,post,hsplit,hat⟩ := hb
      obtain ⟨c,rest,rfl,rfl⟩ := hstarts hu hk pre post hsplit hat
      have hle := StartsBlock.le ⟨pre,rest,hsplit,hat⟩
      obtain ⟨hgood,hnat⟩ := hnext u c.length hu hk hle
      refine ih hgood ⟨pre ++ [c],rest,by rw [hsplit]; simp,?_⟩
      rw [hnat,hat,List.flatten_append,List.length_append]
      simp
  obtain ⟨ht,pre,post,hsplit,hat⟩ := hinv hw hs ⟨[],blocks,rfl,by simpa using h0⟩
  obtain ⟨c,rest,rfl,rfl⟩ := hstarts ht he pre post hsplit hat
  exact ⟨ht,c,⟨pre,rest,hsplit,hat⟩,rfl⟩

end Boundaries

def ElementsFit (check : Bytes → Nat → Exec Unit) (m : Bytes) (head length : Nat) : Prop :=
  ∀ lens offset len, ElementWalk check m head length 0 lens offset →
    ElementAt check m head length offset len → offset + len ≤ length

abbrev ActionsFit := ElementsFit validateAction

abbrev PropertiesFit := ElementsFit validateQueueProperty

section Elements

variable {check : Bytes → Nat → Exec Unit} {m : Bytes} {head length : Nat}

theorem tiles_of_walk {s t : Nat} {lens : List Nat} (hlt : length < 65536)
    (hin : head + length ≤ m.length) (hmin : ∀ p, check m p = .ok () → 8 ≤ (be16 m (p + 2)).toNat)
    (hw : ElementWalk check m head length s lens t) (hs : s ≤ length)
    (hfit : ∀ ks offset len, ElementWalk check m head length s ks offset →
      ElementAt check m head length offset len → offset + len ≤ length) :
    s ≤ t ∧ t ≤ length ∧ ∃ blocks : List Bytes, Holds m (head + s) blocks.flatten ∧
      blocks.flatten.length = t - s ∧ ∀ b ∈ blocks, ∃ p, Holds m p b ∧ check m p = .ok () ∧
        (be16 m (p + 2)).toNat = b.length := by
  induction hw with
  | nil s => exact ⟨le_rfl,hs,[],holds_nil m _,by simp,by simp⟩
  | @cons s t len ls he rest ih =>
    have hle := hfit [] s len (.nil s) he
    have hwrap : wrapOffset s len = s + len := by
      rw [wrapOffset]
      omega
    have hlen := hmin _ he.accepted
    rw [he.len] at hlen
    obtain ⟨hst,htl,blocks,hblocks,hbl,hall⟩ := ih (by omega)
      (fun ks offset k hks => hfit (len :: ks) offset k (.cons he hks))
    rw [hwrap] at hst hblocks hbl
    have hb : Holds m (head + s) (slice m (head + s) len) := holds_slice (by omega)
    have hbs : (slice m (head + s) len).length = len := length_slice (by omega)
    refine ⟨by omega,htl,slice m (head + s) len :: blocks,?_,?_,?_⟩
    · rw [List.flatten_cons]
      refine Holds.append.mpr ⟨hb,?_⟩
      rw [hbs,Nat.add_assoc]
      exact hblocks
    · rw [List.flatten_cons,List.length_append,hbs]
      omega
    · intro b hmem
      rcases List.mem_cons.mp hmem with rfl | hmem
      · exact ⟨head + s,hb,he.accepted,by rw [hbs,he.len]⟩
      · exact hall b hmem

theorem tiles_of_accepted (hlt : length < 65536) (hin : head + length ≤ m.length)
    (hread : ∀ m p, check m p = .ok () → p + 4 ≤ m.length)
    (hmin : ∀ p, check m p = .ok () → 8 ≤ (be16 m (p + 2)).toNat)
    (hok : Yields (fun n => validateElements check n m head length) (.ok ()))
    (hfit : ElementsFit check m head length) :
    ∃ blocks : List Bytes, slice m head length = blocks.flatten ∧
      ∀ b ∈ blocks, ∃ p, Holds m p b ∧ check m p = .ok () ∧
        (be16 m (p + 2)).toNat = b.length := by
  have hset : ∀ s, Settled (fun _ : Nat => elementStep check m head s) := fun _ => settled_const _
  simp only [validateElements] at hok
  rw [yields_bind (settled_whileLoop hset 0) (fun _ => settled_const _)] at hok
  rcases hok with ⟨t,hloop,_⟩ | ⟨e,_,h⟩
  · obtain ⟨hreach,hdone⟩ := (whileLoop_yields_ok hset _ _).mp hloop
    obtain ⟨lens,hw⟩ := ((follows_elements hread m head length).reach 0 t).mp hreach
    obtain ⟨_,htl,blocks,hblocks,hbl,hall⟩ := tiles_of_walk hlt hin hmin hw (by omega) hfit
    simp only [decide_eq_false_iff_not,Nat.not_lt] at hdone
    refine ⟨blocks,?_,hall⟩
    have ht : blocks.flatten.length = length := by omega
    rw [Holds,ht] at hblocks
    exact hblocks
  · simp at h

theorem fit_of_tiles {blocks : List Bytes} (hlt : length < 65536)
    (hin : head + length ≤ m.length) (htiles : Tiles 2 (slice m head length) blocks) :
    ElementsFit check m head length := by
  have hflat : Holds m head blocks.flatten := by
    rw [← htiles.whole]
    exact holds_slice hin
  have htotal : blocks.flatten.length = length := by rw [← htiles.whole,length_slice hin]
  intro lens offset len hw he
  obtain ⟨_,b,hb,rfl⟩ := walk_on_blocks blocks id (fun _ => True)
    (fun s k _ hk => by rw [htotal]; exact hk.inside)
    (fun s k b _ hk hb => by
      obtain ⟨hfit,hlen⟩ := htiles.lens b hb.mem
      have hfield := (hb.holds hflat).be16 hfit
      rw [← hk.len,← hlen,← hfield,id_eq])
    (fun s k _ _ hle => ⟨trivial,Nat.mod_eq_of_lt (by rw [htotal] at hle; exact lt_of_le_of_lt hle hlt)⟩)
    hw trivial rfl he
  exact htotal ▸ hb.le

end Elements

theorem actions_of_accepted {m : Bytes} {head length : Nat} (hlt : length < 65536)
    (hin : head + length ≤ m.length)
    (hok : Yields (fun n => validateActions n m head length) (.ok ()))
    (hfit : ActionsFit m head length) :
    ∃ actions : List Bytes, slice m head length = actions.flatten ∧
      ∀ b ∈ actions, IsAction .net b := by
  obtain ⟨blocks,hwhole,hall⟩ := tiles_of_accepted hlt hin (fun _ _ h => (validateAction_reads h).1)
    (fun _ h => (validateAction_reads h).2) hok hfit
  refine ⟨blocks,hwhole,fun b hb => ?_⟩
  obtain ⟨p,hm,hacc,hlen⟩ := hall b hb
  exact actionBlock_of_accepted hm hacc hlen

theorem properties_of_accepted {m : Bytes} {head length : Nat} (hlt : length < 65536)
    (hin : head + length ≤ m.length)
    (hok : Yields (fun n => validateQueueProperties n m head length) (.ok ()))
    (hfit : PropertiesFit m head length) :
    ∃ properties : List Bytes, slice m head length = properties.flatten ∧
      ∀ b ∈ properties, PropertyBlock .net b := by
  obtain ⟨blocks,hwhole,hall⟩ := tiles_of_accepted hlt hin
    (fun _ _ h => (validateQueueProperty_reads h).1)
    (fun _ h => (validateQueueProperty_reads h).2.1) hok hfit
  refine ⟨blocks,hwhole,fun b hb => ?_⟩
  obtain ⟨p,hm,hacc,hlen⟩ := hall b hb
  exact propertyBlock_of_accepted hm hacc hlen

theorem tiles_actions {region : Bytes} {actions : List Bytes} (hwhole : region = actions.flatten)
    (hall : ∀ b ∈ actions, IsAction .net b) : Tiles 2 region actions := by
  refine ⟨hwhole,fun b hb => ?_⟩
  obtain ⟨t,ht⟩ := hall b hb
  have := ht.length_ge
  exact ⟨by omega,ht.len⟩

theorem tiles_properties {region : Bytes} {properties : List Bytes}
    (hwhole : region = properties.flatten) (hall : ∀ b ∈ properties, PropertyBlock .net b) :
    Tiles 2 region properties := by
  refine ⟨hwhole,fun b hb => ?_⟩
  have := (hall b hb).length_ge
  exact ⟨by omega,(hall b hb).len⟩

theorem slice_to_end {m : Bytes} {p n : Nat} (h : m.length - p ≤ n) : slice m p n = m.drop p := by
  rw [slice,List.take_of_length_le (by rw [List.length_drop]; exact h)]

theorem drop_slice (m : Bytes) (p n k : Nat) :
    (slice m p n).drop k = slice m (p + k) (n - k) := by
  rw [slice,slice,List.drop_take,List.drop_drop]

section Flows

variable {m : Bytes}

theorem flowStats_no_overrun {s t : Nat × Nat} {lens : List Nat} {len : Nat}
    (hsum : s.1 + s.2 = m.length) (he : FlowEntryAt m s len)
    (hw : FlowWalk m (nextEntry s len) lens t) (ht : t.1 = 0) : len ≤ s.1 := by
  by_contra hlt
  have hread := flowStatsHead_reads he.head
  have hlen : len < 65536 := hread.2 ▸ (be16 m s.2).toNat_lt
  have hpos : (nextEntry s len).1 ≠ 0 := by
    simp only [nextEntry,sub16]
    omega
  cases hw with
  | nil => exact hpos ht
  | cons he' _ =>
    have hin := (flowStatsHead_reads he'.head).1
    simp only [nextEntry] at hin
    omega

theorem flowBlocks_of_walk {s t : Nat × Nat} {lens : List Nat} (hm : m.length < 65536)
    (hw : FlowWalk m s lens t) (ht : t.1 = 0) (hsum : s.1 + s.2 = m.length)
    (hfit : ∀ ks u len, FlowWalk m s ks u → FlowEntryAt m u len →
      88 ≤ len ∧ ActionsFit m (u.2 + 88) (len - 88)) :
    ∃ entries : List (Bytes × List Bytes), m.drop s.2 = concat Prod.fst entries ∧
      ∀ e ∈ entries, FlowBlock .net e.1 e.2 := by
  induction hw with
  | nil s =>
    refine ⟨[],?_,by simp⟩
    rw [concat_nil,List.drop_eq_nil_of_le (by omega)]
  | @cons s t len ls he rest ih =>
    have hle := flowStats_no_overrun hsum he rest ht
    obtain ⟨h88,hacts⟩ := hfit [] s len (.nil s) he
    have hnext : nextEntry s len = (s.1 - len,s.2 + len) := by
      rw [nextEntry,sub16_of_le hle (by omega)]
    obtain ⟨entries,hwhole,hall⟩ := ih ht (by rw [hnext]; simp only; omega)
      (fun ks u k hks => hfit (len :: ks) u k (.cons he hks))
    rw [hnext] at hwhole
    have haccept := he.actions
    rw [entryActionsLength,sub16_of_le h88 (by omega)] at haccept
    obtain ⟨actions,hactions,hblocks⟩ := actions_of_accepted (by omega) (by omega) haccept hacts
    have hlen : (slice m s.2 len).length = len := length_slice (by omega)
    refine ⟨(slice m s.2 len,actions) :: entries,?_,?_⟩
    · rw [concat_cons,← hwhole,slice,← List.drop_drop,List.take_append_drop]
    · intro e hmem
      rcases List.mem_cons.mp hmem with rfl | hmem
      · refine ⟨?_,by simp only; omega,?_,hblocks⟩
        · show (be16 (slice m s.2 len) 0).toNat = (slice m s.2 len).length
          rw [be16,slice_slice (by omega),Nat.add_zero,hlen]
          exact (flowStatsHead_reads he.head).2.symm
        · simp only
          rw [drop_slice,hactions]
      · exact hall e hmem

theorem flowFit_of_tiles {entries : List Bytes} (hm : m.length < 65536) (hmin : 12 ≤ m.length)
    (htiles : Tiles 0 (m.drop 12) entries)
    (hall : ∀ e ∈ entries, 88 ≤ e.length ∧ ∃ actions, Tiles 2 (e.drop 88) actions)
    {lens : List Nat} {s : Nat × Nat} {len : Nat} (hw : FlowWalk m (m.length - 12,12) lens s)
    (he : FlowEntryAt m s len) : 88 ≤ len ∧ ActionsFit m (s.2 + 88) (len - 88) := by
  have hflat : Holds m 12 entries.flatten := by
    rw [← htiles.whole,Holds,slice,List.take_length]
  have htotal : entries.flatten.length = m.length - 12 := by rw [← htiles.whole,List.length_drop]
  obtain ⟨⟨hpos,_⟩,b,hb,rfl⟩ := walk_on_blocks entries (fun u : Nat × Nat => u.2 - 12)
    (fun u => 12 ≤ u.2 ∧ u.1 = m.length - u.2)
    (fun u k hu hk => by
      have := hk.remains
      omega)
    (fun u k b hu hk hb => by
      obtain ⟨hfit,hlen⟩ := htiles.lens b hb.mem
      have hfield := (hb.holds hflat).be16 hfit
      rw [show 12 + (u.2 - 12) + 0 = u.2 by omega] at hfield
      rw [(flowStatsHead_reads hk.head).2,hfield,hlen])
    (fun u k hu _ hle => by
      have hsub : sub16 u.1 k = u.1 - k := sub16_of_le (by omega) (by omega)
      simp only [nextEntry,hsub]
      omega)
    hw ⟨le_rfl,rfl⟩ rfl he
  obtain ⟨h88,actions,hactions⟩ := hall b hb.mem
  have hmb := hb.holds hflat
  rw [show 12 + (s.2 - 12) = s.2 by omega] at hmb
  have hbound := hmb.bound (by omega)
  have hslice : slice m (s.2 + 88) (b.length - 88) = b.drop 88 := by
    rw [hmb.slice_eq (by omega),slice_to_end (by omega)]
  rw [← hslice] at hactions
  exact ⟨h88,fit_of_tiles (by omega) (by omega) hactions⟩

end Flows

section Queues

variable {m : Bytes}

theorem queues_no_overrun {s t : QueueCount} {lens : List Nat} {len : Nat}
    (hsum : s.remaining + s.queue = m.length) (he : QueueAt m s len)
    (hw : QueueWalk m (nextQueue s len) lens t) (ht : t.remaining = 0) : len ≤ s.remaining := by
  by_contra hlt
  have hlen : len < 65536 := he.len ▸ (be16 m (s.queue + 4)).toNat_lt
  have hpos : (nextQueue s len).remaining ≠ 0 := by
    simp only [nextQueue,sub16]
    omega
  cases hw with
  | nil => exact hpos ht
  | cons he' _ =>
    have hin := he'.inside
    simp only [nextQueue] at hin
    omega

theorem validatePacketQueue_accepted {p : Nat}
    (h : Yields (fun n => validatePacketQueue n m p) (.ok ())) :
    16 ≤ (be16 m (p + 4)).toNat ∧
      Yields (fun n => validateQueueProperties n m (p + 8) ((be16 m (p + 4)).toNat - 8))
        (.ok ()) := by
  obtain ⟨_,n,hn⟩ := h
  simp only [validatePacketQueue,bind_eq_ok,net16_eq_ok,rejectIf_eq_ok] at hn
  obtain ⟨_,⟨_,rfl⟩,_,h16,hn⟩ := hn
  have hlt := (be16 m (p + 4)).toNat_lt
  rw [sub16_of_le (by omega) hlt] at hn
  exact ⟨by omega,by simp,n,hn⟩

theorem queueBlocks_of_walk {s t : QueueCount} {lens : List Nat} (hm : m.length < 65536)
    (hw : QueueWalk m s lens t) (ht : t.remaining = 0) (hsum : s.remaining + s.queue = m.length)
    (hok : Yields (fun n => validatePacketQueues n m s.queue lens.length) (.ok ()))
    (hfit : ∀ ks u len, QueueWalk m s ks u → QueueAt m u len →
      PropertiesFit m (u.queue + 8) (len - 8)) :
    ∃ queues : List (Bytes × List Bytes), m.drop s.queue = concat Prod.fst queues ∧
      ∀ q ∈ queues, QueueBlock .net q.1 q.2 := by
  induction hw with
  | nil s =>
    refine ⟨[],?_,by simp⟩
    rw [concat_nil,List.drop_eq_nil_of_le (by omega)]
  | @cons s t len ls he rest ih =>
    have hle := queues_no_overrun hsum he rest ht
    have hprops := hfit [] s len (.nil s) he
    have hnext : nextQueue s len = ⟨s.remaining - len,s.queue + len,s.queues + 1⟩ := by
      rw [nextQueue,sub16_of_le hle (by omega)]
    obtain ⟨_,n,hn⟩ := hok
    simp only [List.length_cons,validatePacketQueues,bind_eq_ok,net16_eq_ok] at hn
    obtain ⟨_,hfirst,_,⟨_,rfl⟩,hrest⟩ := hn
    rw [he.len] at hrest
    obtain ⟨h16,haccept⟩ := validatePacketQueue_accepted (p := s.queue) ⟨by simp,n,hfirst⟩
    rw [he.len] at h16 haccept
    obtain ⟨queues,hwhole,hall⟩ := ih ht (by rw [hnext]; simp only; omega)
      (by rw [hnext]; exact ⟨by simp,n,hrest⟩)
      (fun ks u k hks => hfit (len :: ks) u k (.cons he hks))
    rw [hnext] at hwhole
    obtain ⟨properties,hproperties,hblocks⟩ :=
      properties_of_accepted (by omega) (by omega) haccept hprops
    have hlen : (slice m s.queue len).length = len := length_slice (by omega)
    refine ⟨(slice m s.queue len,properties) :: queues,?_,?_⟩
    · rw [concat_cons,← hwhole,slice,← List.drop_drop,List.take_append_drop]
    · intro q hmem
      rcases List.mem_cons.mp hmem with rfl | hmem
      · refine ⟨?_,by simp only; omega,?_,hblocks⟩
        · show (be16 (slice m s.queue len) 4).toNat = (slice m s.queue len).length
          rw [be16,slice_slice (by omega),hlen]
          exact he.len
        · simp only
          rw [drop_slice,hproperties]
      · exact hall q hmem

theorem queuesFit_of_tiles {queues : List Bytes} (hm : m.length < 65536) (hmin : 16 ≤ m.length)
    (htiles : Tiles 4 (m.drop 16) queues)
    (hall : ∀ q ∈ queues, 8 ≤ q.length ∧ ∃ properties, Tiles 2 (q.drop 8) properties)
    {lens : List Nat} {s : QueueCount} {len : Nat}
    (hw : QueueWalk m ⟨m.length - 16,16,0⟩ lens s) (he : QueueAt m s len) :
    PropertiesFit m (s.queue + 8) (len - 8) := by
  have hflat : Holds m 16 queues.flatten := by
    rw [← htiles.whole,Holds,slice,List.take_length]
  have htotal : queues.flatten.length = m.length - 16 := by rw [← htiles.whole,List.length_drop]
  obtain ⟨⟨hpos,_⟩,b,hb,rfl⟩ := walk_on_blocks queues (fun u : QueueCount => u.queue - 16)
    (fun u => 16 ≤ u.queue ∧ u.remaining = m.length - u.queue)
    (fun u k hu hk => by
      have := hk.remains
      omega)
    (fun u k b hu hk hb => by
      obtain ⟨hfit,hlen⟩ := htiles.lens b hb.mem
      have hfield := (hb.holds hflat).be16 hfit
      rw [show 16 + (u.queue - 16) + 4 = u.queue + 4 by omega] at hfield
      rw [← hk.len,hfield,hlen])
    (fun u k hu _ hle => by
      have hsub : sub16 u.remaining k = u.remaining - k := sub16_of_le (by omega) (by omega)
      simp only [nextQueue,hsub]
      omega)
    hw ⟨le_rfl,rfl⟩ rfl he
  obtain ⟨h8,properties,hproperties⟩ := hall b hb.mem
  have hmb := hb.holds hflat
  rw [show 16 + (s.queue - 16) = s.queue by omega] at hmb
  have hbound := hmb.bound (by omega)
  have hslice : slice m (s.queue + 8) (b.length - 8) = b.drop 8 := by
    rw [hmb.slice_eq (by omega),slice_to_end (by omega)]
  rw [← hslice] at hproperties
  exact fit_of_tiles (by omega) (by omega) hproperties

end Queues

end Trema.OpenFlow
