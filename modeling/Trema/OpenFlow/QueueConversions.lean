import Trema.OpenFlow.ConversionPairs

namespace Trema.OpenFlow

open Library Layout

-- Which of the two conversions is hton depends on the order of the entry they begin with.
def HtonInPlace : Order → Nat → Nat → Nat → Prop
  | .host, p, q, _ => q = p
  | .net, _, q, r => r = q

section Kept

variable {order : Order} {e m : Bytes} {p q r : Nat} {properties : List Bytes}

theorem exists_olds (h : QueueBlock order e properties) (hroom : q + e.length ≤ m.length) :
    ∃ olds : List Bytes, List.Forall₂ (fun b old => old.length = b.length) properties olds ∧
      Holds m (q + 8) olds.flatten := by
  have hfits := h.fits
  have hl : properties.flatten.length = e.length - 8 := by rw [← h.tail,List.length_drop]
  have hslice : (slice m (q + 8) (e.length - 8)).length = e.length - 8 := length_slice (by omega)
  obtain ⟨olds,hsplit,hall⟩ := exists_split id properties (slice m (q + 8) (e.length - 8))
    (by rw [concat_id,hl,hslice])
  exact ⟨olds,hall,hsplit ▸ holds_slice (by omega)⟩

theorem u16_queueImage (olds : List Bytes) (h : QueueBlock order e properties) (o : Order) :
    o.flip.u16 (queueImage order e properties olds) 4 = o.u16 e 4 := by
  have hfits := h.fits
  have hhead := length_queueHead hfits
  rw [queueImage,Order.u16_append _ (by omega)]
  exact Order.u16_cells o (by decide) (show 6 ≤ e.length by omega)

theorem queue_gives_back (h : QueueBlock order e properties) (hm : Holds m p e)
    (hq : q + e.length ≤ m.length) (hr : r + e.length ≤ m.length) (hqp : Placed q p e.length)
    (hrq : Placed r q e.length) (hkept : HtonInPlace order p q r → be16 e 4 = host16 e 4) :
    GivesBack (queueLayout properties) (fun n => convertPacketQueueAt order n m q p)
      (fun n mid => convertPacketQueueAt order.flip n mid r q) r e := by
  obtain ⟨olds,holds,hold⟩ := exists_olds h hq
  have hlen := length_queueImage h holds
  have hfirst : foundLength order q p e = order.u16 e 4 := by
    rw [foundLength]
    split
    · rename_i hplace
      obtain ⟨rfl,rfl⟩ := hplace
      exact hkept rfl
    · rfl
  have hsecond : foundLength order.flip r q (queueImage order e properties olds) =
      order.flip.u16 (queueImage order e properties olds) 4 := by
    rw [foundLength]
    split
    · rename_i hplace
      obtain ⟨horder,rfl⟩ := hplace
      cases order with
      | net =>
        have hbig := u16_queueImage olds h .host
        have hlittle := u16_queueImage olds h .net
        exact (hbig.trans (hkept rfl).symm).trans hlittle.symm
      | host => cases horder
    · rfl
  obtain ⟨mid,hmid,hyields⟩ := convertPacketQueueAt_yields h holds hm hold hq hqp hfirst
  have hmidlen := length_of_store hmid
  obtain ⟨olds',holds',hold'⟩ := exists_olds (h.image holds) (show r + _ ≤ mid.length by omega)
  obtain ⟨out,hout,hyields'⟩ := convertPacketQueueAt_yields (h.image holds) holds'
    (holds_of_store hmid) hold' (by omega) (hlen.symm ▸ hrq) hsecond
  refine .of_held hyields hyields' (holds_of_store hout) (queue_restores h holds ?_)
  have hblocks := h.blocks
  clear hold hlen hfirst hsecond hyields hmid hold' hout hyields' h hmidlen
  induction holds generalizing olds' with
  | nil => exact holds'
  | @cons b old bs olds hb _ ih =>
    obtain _ | ⟨hb',hrest⟩ := holds'
    exact .cons (hb'.trans (length_propertyImage (hblocks b (by simp)) hb))
      (ih _ hrest fun c hc => hblocks c (by simp [hc]))

end Kept

section Writes

variable {order : Order} {src dst out : Bytes} {p q : Nat}

theorem slice_store {bs : Bytes} {k n : Nat} (h : store dst q bs = (.ok out : Exec Bytes))
    (hk : k + n ≤ q) : slice out k n = slice dst k n := by
  obtain ⟨hroom,_⟩ := store_eq_ok.mp h
  have hlen : (slice dst k n).length = n := length_slice (by omega)
  have hkept : Holds out k (slice dst k n) := (holds_slice (by omega)).frame h (.inl (by omega))
  rwa [Holds,hlen] at hkept

theorem convertQueueProperty_writes (h : convertQueueProperty order src p dst q = .ok out) :
    slice out q 4 = cells [.swap 2,.swap 2] (src.drop p) ∧ p + 4 ≤ src.length ∧
      4 ≤ (order.u16 src (p + 2)).toNat ∧ ∀ k n, k + n ≤ q → slice out k n = slice dst k n := by
  simp only [convertQueueProperty,bind_eq_ok] at h
  obtain ⟨_,_,_,_,len,hlen,_,_,ph,hph,head,hhead,mid,hmid,hrest⟩ := h
  obtain ⟨hin,hph⟩ := load_eq_ok.mp hph
  obtain ⟨hfour,hhead⟩ := convert_eq_ok.mp hhead
  have hfour : readEnd [.swap 2,.swap 2] ≤ ph.length := (Nat.zero_add _).symm.trans_le hfour
  have hfits : 4 ≤ ph.length := hfour
  have hphlen : ph.length = len.toNat := by rw [hph,length_slice hin]
  have hread := (within_eq_ok.mp hlen).2
  have hcells : head = cells [.swap 2,.swap 2] (src.drop p) := by
    have hsplit : src.drop p = ph ++ (src.drop p).drop len.toNat := by
      rw [hph]
      exact (List.take_append_drop _ _).symm
    rw [hhead,hsplit,cells_append _ hfour]
    rfl
  have hclen : head.length = 4 := by
    rw [hcells]
    exact length_cells (show 4 ≤ (src.drop p).length by rw [List.length_drop]; omega)
  have hheld : slice mid q 4 = head := by
    have hheld := holds_of_store hmid
    rwa [Holds,hclen] at hheld
  have hlow : ∀ k n, k + n ≤ q → slice mid k n = slice dst k n := fun k n hk => slice_store hmid hk
  refine ⟨?_,by omega,by rw [← hread]; omega,?_⟩
  · rw [← hcells,← hheld]
    split at hrest
    · obtain ⟨_,_,hstore⟩ := bind_eq_ok.mp hrest
      exact slice_store hstore (by omega)
    · rw [Except.ok.inj hrest]
  · intro k n hk
    rw [← hlow k n hk]
    split at hrest
    · obtain ⟨_,_,hstore⟩ := bind_eq_ok.mp hrest
      exact slice_store hstore (by omega)
    · rw [Except.ok.inj hrest]

-- ntoh goes on behind the head it has just written.
theorem propertyStep_writes {pq : Bytes} {s t : Conversion} (h : propertyStepAt .net pq s = .ok t) :
    slice t.out s.dst 4 = cells [.swap 2,.swap 2] (pq.drop s.src) ∧ s.dst + 4 ≤ t.dst ∧
      ∀ k n, k + n ≤ s.dst → slice t.out k n = slice s.out k n := by
  obtain ⟨out,hout,hrest⟩ := bind_eq_ok.mp h
  obtain ⟨len,hlen,ht⟩ := bind_eq_ok.mp hrest
  obtain ⟨hhead,hin,hfour,hlow⟩ := convertQueueProperty_writes hout
  have hread : len = host16 out (s.dst + 2) := (within_eq_ok.mp hlen).2
  have hsame : host16 out (s.dst + 2) = be16 pq (s.src + 2) := by
    have hcells : host16 (cells [.swap 2,.swap 2] (pq.drop s.src)) 2 = be16 (pq.drop s.src) 2 :=
      host16_cells (by decide) (show 4 ≤ (pq.drop s.src).length by rw [List.length_drop]; omega)
    rw [← hhead,host16,be16,slice_drop,slice_slice (show 2 + 2 ≤ 4 by omega)] at hcells
    exact hcells
  have hge : 4 ≤ len.toNat := by rw [hread,hsame]; exact hfour
  cases ht
  exact ⟨hhead,by simp only; omega,hlow⟩

theorem propertyLoop_keeps {pq : Bytes} {s t : Conversion}
    (h : Reach (fun s => decide (8 ≤ s.remaining)) (fun _ => propertyStepAt .net pq) s t) :
    s.dst ≤ t.dst ∧ ∀ k n, k + n ≤ s.dst → slice t.out k n = slice s.out k n := by
  induction h with
  | refl => exact ⟨le_rfl,fun _ _ _ => rfl⟩
  | @tail t u _ hnext ih =>
    obtain ⟨hle,hkept⟩ := ih
    obtain ⟨_,_,_,hrun⟩ := hnext
    obtain ⟨_,hgo,hlow⟩ := propertyStep_writes hrun
    exact ⟨by omega,fun k n hk => (hlow k n (by omega)).trans (hkept k n hk)⟩

end Writes

section Short

variable {src : Bytes} {step : Conversion → Exec Conversion} {image : Bytes → Bytes → Bytes}
  {good : Bytes → Prop}

-- A counter that does not start at the length of the blocks either ends the loop among them or takes
-- it past the end of the source.
theorem Converts.stops_short (h : Converts (fun s => decide (8 ≤ s.remaining)) (fun _ => step) src id
      image good) (hend : ∀ s t, s.src = src.length → step s ≠ .ok t) {bs olds : List Bytes}
    (hbs : List.Forall₂ (fun b old => good b ∧ old.length = b.length) bs olds)
    {c p q : Nat} {dst : Bytes} {last : Conversion} (hc : c < 65536)
    (hmiss : 8 ≤ sub16 c bs.flatten.length) (hlt : bs.flatten.length < 65536)
    (hsrc : Holds src p bs.flatten) (hlen : p + bs.flatten.length = src.length)
    (hdst : Holds dst q olds.flatten) (hroom : q + bs.flatten.length ≤ dst.length)
    (hreach : Reach (fun s => decide (8 ≤ s.remaining)) (fun _ => step) ⟨c,p,q,dst⟩ last)
    (hlast : last.remaining < 8) :
    ∃ pre b post, bs = pre ++ b :: post ∧
      store dst q (List.zipWith image pre olds).flatten = (.ok last.out : Exec Bytes) := by
  induction hbs generalizing c p q dst with
  | nil =>
    have hsame : sub16 c ([] : List Bytes).flatten.length = c := sub16_of_le (Nat.zero_le c) hc
    rw [hsame] at hmiss
    rcases Relation.ReflTransGen.cases_head hreach with rfl | ⟨t,⟨_,_,_,hrun⟩,_⟩
    · exact absurd hmiss (Nat.not_le.mpr hlast)
    · exact absurd hrun (hend _ t hlen)
  | @cons b old bs olds hb _ ih =>
    obtain ⟨hgood,hold⟩ := hb
    simp only [List.flatten_cons,List.length_append] at hmiss hlt hlen hroom
    rw [List.flatten_cons] at hsrc hdst
    by_cases hstop : c < 8
    · refine ⟨[],b,bs,rfl,?_⟩
      rcases Relation.ReflTransGen.cases_head hreach with rfl | ⟨t,⟨hcond,_⟩,_⟩
      · exact store_nil (by omega)
      · simp only [decide_eq_true_eq] at hcond
        omega
    · obtain ⟨hsb,hsrest⟩ := Holds.append.mp hsrc
      obtain ⟨hdb,hdrest⟩ := Holds.append.mp hdst
      have hkeep := h.keeps b old hgood hold
      simp only [id_eq] at hkeep
      obtain ⟨out,hout,hy⟩ := h.steps b old ⟨c,p,q,dst⟩ hgood hsb hdb hold
        (show q + b.length ≤ dst.length by omega)
      simp only [id_eq] at hy
      have hnext : Next (fun s => decide (8 ≤ s.remaining)) (fun _ => step) ⟨c,p,q,dst⟩
          ⟨sub16 c b.length,p + b.length,q + b.length,out⟩ := by
        refine ⟨?_,hy⟩
        simp only [decide_eq_true_eq]
        omega
      have houtlen : out.length = dst.length := length_of_store hout
      have hframe : Holds out (q + b.length) olds.flatten := by
        rw [hold] at hdrest
        exact hdrest.frame hout (.inr (show q + (image b old).length ≤ q + b.length by omega))
      rcases Relation.ReflTransGen.cases_head hreach with rfl | ⟨t,ht,hrest⟩
      · exact absurd hlast hstop
      · rw [next_unique (fun s => settled_const (step s)) ht hnext] at hrest
        obtain ⟨pre,b',post,rfl,hstore⟩ := ih (sub16_lt _ _)
          (by simp only [sub16] at hmiss ⊢; omega) (by omega) hsrest (by omega) hframe (by omega) hrest
        refine ⟨b :: pre,b',post,rfl,?_⟩
        rw [List.zipWith_cons_cons,List.flatten_cons]
        exact store_then_store hout (by rw [hkeep]; exact hstore)

theorem exists_u16_bytes {b : Bytes} {off : Nat} (h : off + 2 ≤ b.length) : ∃ x y : UInt8,
    (host16 b off).toNat = x.toNat + 256 * y.toNat ∧ (be16 b off).toNat = y.toNat + 256 * x.toNat := by
  have hlen : (slice b off 2).length = 2 := length_slice h
  obtain ⟨x,y,hxy⟩ := List.length_eq_two.mp hlen
  have hx := x.toNat_lt
  have hy := y.toNat_lt
  refine ⟨x,y,?_,?_⟩
  · rw [host16,hxy,leNat,leNat,leNat,UInt16.toNat_ofNat']
    omega
  · rw [be16,hxy]
    simp only [beNat,List.reverse_cons,List.reverse_nil,List.nil_append,List.cons_append,leNat,
      UInt16.toNat_ofNat']
    omega

theorem swapped_length_misses {e : Bytes} (he : 6 ≤ e.length) (hfits : 8 ≤ (host16 e 4).toNat)
    (hne : be16 e 4 ≠ host16 e 4) :
    8 ≤ sub16 (sub16 (be16 e 4).toNat 8) ((host16 e 4).toNat - 8) := by
  obtain ⟨x,y,hlittle,hbig⟩ := exists_u16_bytes he
  have hx := x.toNat_lt
  have hy := y.toNat_lt
  have hdiffer : x.toNat ≠ y.toNat := by
    intro h
    apply hne
    apply UInt16.toNat_inj.mp
    omega
  rw [hlittle] at hfits ⊢
  rw [hbig]
  have htwice : sub16 (sub16 (y.toNat + 256 * x.toNat) 8) (x.toNat + 256 * y.toNat - 8) =
      (65536 + 255 * x.toNat - 255 * y.toNat) % 65536 := by
    simp only [sub16]
    omega
  rw [htwice]
  rcases Nat.lt_or_gt_of_ne hdiffer with h | h
  · rw [Nat.mod_eq_of_lt (by omega)]
    omega
  · have hwrap : 65536 + 255 * x.toNat - 255 * y.toNat = 255 * (x.toNat - y.toNat) + 65536 := by omega
    rw [hwrap,Nat.add_mod_right,Nat.mod_eq_of_lt (by omega)]
    omega

theorem zipWith_self {α β : Type} (f : α → α → β) (pre rest : List α) :
    List.zipWith f pre (pre ++ rest) = pre.map fun b => f b b := by
  induction pre with
  | nil => rfl
  | cons b pre ih => rw [List.cons_append,List.zipWith_cons_cons,List.map_cons,ih]

theorem hton_in_place_stops {e m out : Bytes} {p : Nat} {properties : List Bytes}
    (h : QueueBlock .host e properties) (hm : Holds m p e) (hne : be16 e 4 ≠ host16 e 4)
    (hy : Yields (fun n => convertPacketQueueAt .host n m p p) (.ok out)) :
    ∃ pre b post, properties = pre ++ b :: post ∧
      store m p (cells packetQueueFields e ++ (pre.map fun b => propertyImage .host b b).flatten) =
        (.ok out : Exec Bytes) := by
  have hfits := h.fits
  have hlt : e.length < 65536 := h.length ▸ (Order.u16 .host e 4).toNat_lt
  have hclen := length_queueHead hfits
  have hl : properties.flatten.length = e.length - 8 := by rw [← h.tail,List.length_drop]
  have hread : Order.host.read16 m (p + 4) = .ok (Order.host.u16 e 4) :=
    Order.read16_holds hm (by omega)
  have hload : load m p e.length = (.ok e : Exec Bytes) := by
    rw [load_ok (hm.bound (by omega)),hm]
  have hin := hm.bound (by omega)
  obtain ⟨mid,hmid⟩ : ∃ mid, store m p (cells packetQueueFields e) = (.ok mid : Exec Bytes) :=
    exists_store (by omega)
  have hmidlen := length_of_store hmid
  have hlength : propertiesLength .host mid p p = .ok (be16 e 4) := by
    rw [propertiesLength_eq .host hfits hm (.inl rfl) hmid,foundLength,if_pos ⟨rfl,rfl⟩]
  obtain ⟨_,n,hn⟩ := hy
  simp only [convertPacketQueueAt,hread,ok_bind,abortIf,h.len_ne_zero,if_false,h.length,hload,h.head,
    hmid,hlength] at hn
  obtain ⟨last,hloop,hout⟩ := bind_eq_ok.mp hn
  have hout : last.out = out := Except.ok.inj hout
  obtain ⟨hreach,hlast⟩ := (whileLoop_yields_ok (fun s => settled_const (propertyStepAt .host e s))
    _ last).mp ⟨by simp,n,hloop⟩
  have hprops : Holds e 8 properties.flatten := by
    have hd := (holds_self e).drop 8 hfits
    rwa [Nat.zero_add,h.tail] at hd
  have hdst : Holds m (p + 8) properties.flatten := by
    have hd := hm.drop 8 hfits
    rwa [h.tail] at hd
  have hend : ∀ s t, s.src = e.length → propertyStepAt .host e s ≠ .ok t := by
    intro s t hs ht
    obtain ⟨_,hconv,_⟩ := bind_eq_ok.mp ht
    have hwrites := (convertQueueProperty_writes hconv).2.1
    omega
  obtain ⟨pre,b,post,hsplit,hstore⟩ := (converts_properties_at .host e).stops_short hend
    (forall₂_and h.blocks (List.forall₂_same.mpr fun b _ => rfl)) (sub16_lt _ _)
    (by rw [hl,← h.length]; exact swapped_length_misses (by omega) (h.length ▸ hfits) hne) (by omega)
    hprops (by omega) (hdst.frame hmid (.inr (by omega))) (by omega) hreach (by simpa using hlast)
  refine ⟨pre,b,post,hsplit,?_⟩
  rw [hsplit,zipWith_self,hout] at hstore
  exact store_then_store hmid (by rw [hclen]; exact hstore)

end Short

section Lost

variable {order : Order} {e e' m out : Bytes} {p q r : Nat} {properties pre post : List Bytes} {b : Bytes}

theorem PropertyBlock.head_changes (h : PropertyBlock order b) :
    cells [.swap 2,.swap 2] b ≠ b.take 4 := by
  intro hsame
  have hb := h.length_ge
  have hflip : order.flip.u16 (b.take 4) 2 = order.u16 b 2 := by
    rw [← hsame]
    exact Order.u16_cells order (by decide) (show 4 ≤ b.length by omega)
  have hhead : slice (b.take 4) 2 2 = slice b 2 2 := by
    rw [slice,List.drop_take,List.take_take]
    rfl
  have hlen := h.len
  have hsized : b.length = 8 ∨ b.length = 16 := h.sized.imp And.right And.right
  obtain ⟨x,y,hlittle,hbig⟩ := exists_u16_bytes (show 2 + 2 ≤ b.length by omega)
  have hx := x.toNat_lt
  have hy := y.toNat_lt
  have hequal : (host16 b 2).toNat = (be16 b 2).toNat := by
    cases order with
    | net =>
      have hflip : host16 (b.take 4) 2 = be16 b 2 := hflip
      rw [← hflip,host16,host16,hhead]
    | host =>
      have hflip : be16 (b.take 4) 2 = host16 b 2 := hflip
      rw [← hflip,be16,be16,hhead]
  have hnet : (be16 b 2).toNat = b.length := by
    cases order with
    | net => exact hlen
    | host => exact hequal.symm.trans hlen
  omega

-- An entry that has come back has every head of a property back.
theorem SameUpToPads.property (h : QueueBlock order e (pre ++ b :: post))
    (hsame : SameUpToPads (queueLayout (pre ++ b :: post)) e e') :
    slice e' (8 + pre.flatten.length) 4 = b.take 4 := by
  have hfits := h.fits
  have hblocks := h.blocks
  have hb := (hblocks b (by simp)).length_ge
  have hpre : size (pre.flatMap propertyLayout) = pre.flatten.length := by
    clear hsame h
    induction pre with
    | nil => rfl
    | cons c pre ih =>
      rw [List.flatMap_cons,size_append,size_propertyLayout (hblocks c (by simp)),
        ih fun d hd => hblocks d (by simp at hd ⊢; tauto)]
      rw [List.flatten_cons,List.length_append]
  have hsize : size (packetQueueFields ++ pre.flatMap propertyLayout) = 8 + pre.flatten.length := by
    rw [size_append,hpre]
    rfl
  have htail := congrArg List.length h.tail
  simp only [List.length_drop,List.flatten_append,List.flatten_cons,List.length_append] at htail
  have hslice : ∀ x : Bytes, x.length = e.length →
      slice (blank (queueLayout (pre ++ b :: post)) x) (8 + pre.flatten.length) 4 =
        slice x (8 + pre.flatten.length) 4 := by
    intro x hx
    have hlayout : queueLayout (pre ++ b :: post) = (packetQueueFields ++ pre.flatMap propertyLayout) ++
        (propertyLayout b ++ post.flatMap propertyLayout) := by
      rw [queueLayout,List.flatMap_append,List.flatMap_cons,List.append_assoc]
    have hblank : (blank (packetQueueFields ++ pre.flatMap propertyLayout) x).length =
        8 + pre.flatten.length := (length_blank (by omega)).trans hsize
    have hfour : (slice x (8 + pre.flatten.length) 4).length = 4 := length_slice (by omega)
    rw [hlayout,blank_append,hsize,slice_append_right _ hblank.le,hblank,Nat.sub_self,blank_append,
      blank_property,List.append_assoc]
    exact List.take_left' hfour
  have hheld : slice e (8 + pre.flatten.length) 4 = b.take 4 := by
    have hdrop : e.drop (8 + pre.flatten.length) = b ++ post.flatten := by
      rw [← List.drop_drop,h.tail,List.flatten_append,List.drop_left' rfl,List.flatten_cons]
    rw [slice,hdrop,List.take_append_of_le_length (by omega)]
  rw [← hslice e' hsame.1,hsame.2,hslice e rfl,hheld]

-- hton in place as the second of the two leaves a property as ntoh has made it.
theorem not_gives_back_hton_last (h : QueueBlock .net e properties) (hm : Holds m p e)
    (hq : q + e.length ≤ m.length) (hqp : Placed q p e.length) (hne : be16 e 4 ≠ host16 e 4) :
    ¬ GivesBack (queueLayout properties) (fun n => convertPacketQueueAt .net n m q p)
      (fun n mid => convertPacketQueueAt .host n mid q q) q e := by
  rintro ⟨mid,out,hfirst,hsecond,hsame⟩
  obtain ⟨olds,holds,hold⟩ := exists_olds h hq
  have hfits := h.fits
  have hclen := length_queueHead hfits
  obtain ⟨mid',hmid,hyields⟩ := convertPacketQueueAt_yields h holds hm hold hq hqp rfl
  obtain rfl : mid = mid' :=
    Except.ok.inj ((settled_convertPacketQueueAt .net m q p).yields_unique hfirst hyields)
  have himage := h.image holds
  have hbig : be16 (queueImage .net e properties olds) 4 = host16 e 4 := u16_queueImage olds h .host
  have hlittle : host16 (queueImage .net e properties olds) 4 = be16 e 4 := u16_queueImage olds h .net
  obtain ⟨pre',b',post',hsplit,hstore⟩ := hton_in_place_stops himage (holds_of_store hmid)
    (by rw [hbig,hlittle]; exact hne.symm) hsecond
  obtain ⟨pre,rest,oldPre,oldRest,hsame_length,rfl,rfl,rfl,hrest⟩ := List.zipWith_eq_append_iff.mp hsplit
  obtain ⟨b,post,old,oldPost,rfl,rfl,rfl,rfl⟩ := List.zipWith_eq_cons_iff.mp hrest.symm
  have hblocks := h.blocks
  have hb : PropertyBlock .net b := hblocks b (by simp)
  have hpairs : List.Forall₂ (fun b old => old.length = b.length) pre oldPre := by
    have htake := List.forall₂_take_append _ _ _ holds
    rwa [← hsame_length,List.take_left' rfl] at htake
  have hpre := length_propertyImages (fun c hc => hblocks c (by simp [hc])) hpairs
  have hagain : ((List.zipWith (propertyImage .net) pre oldPre).map fun b =>
      propertyImage .host b b).flatten.length = pre.flatten.length := by
    have hself := length_propertyImages (propertyImages_blocks (fun c hc => hblocks c (by simp [hc])) hpairs)
      (List.forall₂_same.mpr fun _ _ => rfl)
    have hzip := zipWith_self (propertyImage .host) (List.zipWith (propertyImage .net) pre oldPre) []
    rw [List.append_nil] at hzip
    rw [← hzip]
    exact hself.trans hpre
  have hheld : Holds mid (q + 8 + pre.flatten.length) (propertyImage .net b old) := by
    have hall := holds_of_store hmid
    rw [queueImage,hsplit] at hall
    have htail := (Holds.append.mp hall).2
    rw [hclen,List.flatten_append] at htail
    have hmine := (Holds.append.mp htail).2
    rw [hpre,List.flatten_cons] at hmine
    exact (Holds.append.mp hmine).1
  have hlen := length_propertyHead hb.length_ge
  have himages : (propertyImage .net b old).take 4 = cells [.swap 2,.swap 2] b := by
    rw [propertyImage]
    exact List.take_left' hlen
  have hkept := hheld.frame hstore (.inr (by
    rw [List.length_append,length_queueHead himage.fits,hagain]
    omega))
  have hout : slice out (q + (8 + pre.flatten.length)) 4 = cells [.swap 2,.swap 2] b := by
    have hslice := hkept.slice_eq (show 0 + 4 ≤ (propertyImage .net b old).length by
      rw [propertyImage,List.length_append]; omega)
    rw [Nat.add_zero,Nat.add_assoc q] at hslice
    rw [hslice,← himages]
    rfl
  have hback := hsame.property h
  have htail := congrArg List.length h.tail
  simp only [List.length_drop,List.flatten_append,List.flatten_cons,List.length_append] at htail
  have hge := hb.length_ge
  rw [slice_slice (by omega),hout] at hback
  exact hb.head_changes hback

theorem hton_in_place_leaves (h : QueueBlock .host e properties) (hm : Holds m p e)
    (hne : be16 e 4 ≠ host16 e 4) {mid : Bytes}
    (hfirst : Yields (fun n => convertPacketQueueAt .host n m p p) (.ok mid)) :
    ∃ (pre : List Bytes) (b : Bytes) (post imgs : List Bytes),
      properties = pre ++ b :: post ∧ mid.length = m.length ∧
      (∀ c ∈ imgs, PropertyBlock .net c) ∧ imgs.flatten.length = pre.flatten.length ∧
      Holds mid p (cells packetQueueFields e ++ (imgs.flatten ++ (b ++ post.flatten))) := by
  have hfits := h.fits
  have hclen := length_queueHead hfits
  obtain ⟨pre,b,post,rfl,hstore⟩ := hton_in_place_stops h hm hne hfirst
  have hblocks := h.blocks
  have htail := congrArg List.length h.tail
  simp only [List.length_drop,List.flatten_append,List.flatten_cons,List.length_append] at htail
  have hself : List.Forall₂ (fun b old : Bytes => old.length = b.length) pre pre :=
    List.forall₂_same.mpr fun _ _ => rfl
  have hzip := zipWith_self (propertyImage .host) pre []
  rw [List.append_nil] at hzip
  have hpre : (pre.map fun b => propertyImage .host b b).flatten.length = pre.flatten.length :=
    hzip ▸ length_propertyImages (fun c hc => hblocks c (by simp [hc])) hself
  refine ⟨pre,b,post,pre.map fun b => propertyImage .host b b,rfl,length_of_store hstore,
    hzip ▸ propertyImages_blocks (fun c hc => hblocks c (by simp [hc])) hself,hpre,?_⟩
  have hdrop := hm.drop (8 + pre.flatten.length) (by omega)
  rw [← List.drop_drop,h.tail,List.flatten_append,List.drop_left' rfl,List.flatten_cons] at hdrop
  have hrest := hdrop.frame hstore (.inr (by rw [List.length_append]; omega))
  rw [← List.append_assoc]
  refine Holds.append.mpr ⟨holds_of_store hstore,?_⟩
  rw [List.length_append,hclen,hpre]
  exact hrest

-- ntoh comes to the first bytes that are not in network order and turns them over all the same.
theorem ntoh_reaches_raw {x head rest : Bytes} {imgs : List Bytes}
    (hx : x = head ++ (imgs.flatten ++ (b ++ rest))) (hhead : head.length = 8)
    (hnet : ∀ c ∈ imgs, PropertyBlock .net c) (hb : 8 ≤ b.length) (hnat : (be16 x 4).toNat = x.length)
    (hm : Holds m p x) (hr : r + x.length ≤ m.length) (hrp : Placed r p x.length)
    (hy : Yields (fun n => convertPacketQueueAt .net n m r p) (.ok out)) :
    slice out (r + (8 + imgs.flatten.length)) 4 = cells [.swap 2,.swap 2] b := by
  have hxlen := congrArg List.length hx
  simp only [List.length_append] at hxlen
  have hlt : x.length < 65536 := hnat ▸ (be16 x 4).toNat_lt
  have hread : Order.net.read16 m (p + 4) = .ok (be16 x 4) := Order.read16_holds hm (by omega)
  have hload : load m p x.length = (.ok x : Exec Bytes) := by
    rw [load_ok (hm.bound (by omega)),hm]
  have hcells : convert packetQueueFields x 0 = (.ok (cells packetQueueFields x) : Exec Bytes) :=
    (holds_self x).convert (show 6 ≤ x.length by omega) (by omega)
  have hclen := length_queueHead (show 8 ≤ x.length by omega)
  obtain ⟨mid,hmid⟩ : ∃ mid, store m r (cells packetQueueFields x) = (.ok mid : Exec Bytes) :=
    exists_store (by omega)
  have hmidlen := length_of_store hmid
  have hlength : propertiesLength .net mid r p = .ok (be16 x 4) :=
    propertiesLength_eq .net (by omega) hm hrp hmid
  have hnonzero : ¬ be16 x 4 = 0 := by
    intro h0
    rw [h0] at hnat
    simp at hnat
    omega
  obtain ⟨_,n,hn⟩ := hy
  simp only [convertPacketQueueAt,hread,ok_bind,abortIf,hnonzero,if_false,hnat,hload,hcells,hmid,
    hlength] at hn
  obtain ⟨last,hloop,hlast⟩ := bind_eq_ok.mp hn
  have hlast : last.out = out := Except.ok.inj hlast
  obtain ⟨hreach,hend⟩ := (whileLoop_yields_ok (fun s => settled_const (propertyStepAt .net x s))
    _ last).mp ⟨by simp,n,hloop⟩
  obtain ⟨olds,hsplit,hall⟩ := exists_split id imgs (slice mid (r + 8) imgs.flatten.length)
    (by rw [concat_id]; exact length_slice (by omega))
  have himgs : Holds x 8 (concat id imgs) := by
    have hdrop := (holds_self x).drop 8 (by omega)
    rw [hx,List.drop_left' hhead] at hdrop
    rw [concat_id,hx]
    exact (Holds.append.mp hdrop).1
  have hrest : (concat id imgs).length + (b.length + rest.length) < 65536 := by
    rw [concat_id]
    omega
  obtain ⟨got,_,hpart⟩ := (converts_properties_at .net x).reach_part (forall₂_and hnet hall) hrest himgs
    (hsplit ▸ holds_slice (by omega)) (show r + 8 + _ ≤ mid.length by rw [concat_id]; omega)
  rw [concat_id] at hpart
  rw [sub16_of_le (by omega) hlt,show x.length - 8 = imgs.flatten.length + (b.length + rest.length) by omega]
    at hreach
  have honly : ∀ s : Conversion, Settled (fun _ : Nat => propertyStepAt .net x s) :=
    fun s => settled_const _
  have hthrough : Reach (fun s => decide (8 ≤ s.remaining)) (fun _ => propertyStepAt .net x)
      ⟨b.length + rest.length,8 + imgs.flatten.length,r + 8 + imgs.flatten.length,got⟩ last := by
    rcases reach_comparable honly hpart hreach with h | h
    · exact h
    · rcases Relation.ReflTransGen.cases_head h with rfl | ⟨_,⟨hcond,_⟩,_⟩
      · exact .refl
      · exact absurd (hcond.symm.trans hend) (by decide)
  rcases Relation.ReflTransGen.cases_head hthrough with rfl | ⟨t,⟨_,_,_,hrun⟩,hrest⟩
  · simp only [decide_eq_false_iff_not] at hend
    omega
  · obtain ⟨hwritten,hgo,_⟩ := propertyStep_writes hrun
    have hkept := (propertyLoop_keeps hrest).2 (r + 8 + imgs.flatten.length) 4 hgo
    have hraw : x.drop (8 + imgs.flatten.length) = b ++ rest := by
      rw [hx,← List.drop_drop,List.drop_left' hhead,List.drop_left' rfl]
    rw [hlast] at hkept
    rw [← Nat.add_assoc,hkept,hwritten,hraw]
    exact cells_append _ (show 4 ≤ b.length by omega)

theorem not_gives_back_hton_first (h : QueueBlock .host e properties) (hm : Holds m p e)
    (hr : r + e.length ≤ m.length) (hrp : Placed r p e.length) (hne : be16 e 4 ≠ host16 e 4) :
    ¬ GivesBack (queueLayout properties) (fun n => convertPacketQueueAt .host n m p p)
      (fun n mid => convertPacketQueueAt .net n mid r p) r e := by
  rintro ⟨mid,out,hfirst,hsecond,hsame⟩
  have hfits := h.fits
  have hclen := length_queueHead hfits
  obtain ⟨pre,b,post,imgs,rfl,hmidlen,hnet,hpre,hheld⟩ := hton_in_place_leaves h hm hne hfirst
  have hb : PropertyBlock .host b := h.blocks b (by simp)
  have hge := hb.length_ge
  have htail := congrArg List.length h.tail
  simp only [List.length_drop,List.flatten_append,List.flatten_cons,List.length_append] at htail
  have hlen : (cells packetQueueFields e ++ (imgs.flatten ++ (b ++ post.flatten))).length = e.length := by
    simp only [List.length_append]
    omega
  have hnat : (be16 (cells packetQueueFields e ++ (imgs.flatten ++ (b ++ post.flatten))) 4).toNat =
      e.length := by
    have hread : be16 (cells packetQueueFields e) 4 = host16 e 4 :=
      Order.u16_cells .host (by decide) (show 6 ≤ e.length by omega)
    have happend := @Order.u16_append .net _ (imgs.flatten ++ (b ++ post.flatten)) 4 (by rw [hclen]; omega)
    rw [← h.length]
    exact congrArg UInt16.toNat (happend.trans hread)
  have hraw := ntoh_reaches_raw rfl hclen hnet hge (hnat.trans hlen.symm) hheld (by omega)
    (hlen.symm ▸ hrp) hsecond
  have hback := hsame.property h
  rw [slice_slice (by omega),← hpre,hraw] at hback
  exact hb.head_changes hback

end Lost

theorem queue_gives_back_iff {order : Order} {e m : Bytes} {properties : List Bytes} {p q r : Nat}
    (h : QueueBlock order e properties) (hm : Holds m p e) (hq : q + e.length ≤ m.length)
    (hr : r + e.length ≤ m.length) (hqp : Placed q p e.length) (hrq : Placed r q e.length) :
    GivesBack (queueLayout properties) (fun n => convertPacketQueueAt order n m q p)
        (fun n mid => convertPacketQueueAt order.flip n mid r q) r e ↔
      (HtonInPlace order p q r → be16 e 4 = host16 e 4) := by
  constructor
  · intro hback hplace
    by_contra hne
    cases order with
    | net =>
      obtain rfl : r = q := hplace
      exact not_gives_back_hton_last h hm hq hqp hne hback
    | host =>
      obtain rfl : q = p := hplace
      exact not_gives_back_hton_first h hm hr hrq hne hback
  · exact queue_gives_back h hm hq hr hqp hrq

theorem converters_give_back_iff (order : Order) :
    (∀ (e src dst back : Bytes) (p q r : Nat), IsAction order e → Holds src p e →
      q + e.length ≤ dst.length → r + e.length ≤ back.length →
      GivesBack (actionLayout order e) (fun _ => convertActionTo order src p dst q)
        (fun _ mid => convertActionTo order.flip mid q back r) r e) ∧
    (∀ (e m : Bytes) (actions : List Bytes) (p q r : Nat), FlowBlock order e actions →
      Holds m p e → q + e.length ≤ m.length → r + e.length ≤ m.length →
      GivesBack (flowLayout order actions) (fun n => convertFlowStatsAt order n m q p)
        (fun n mid => convertFlowStatsAt order.flip n mid r q) r e) ∧
    ∀ (e m : Bytes) (properties : List Bytes) (p q r : Nat),
      QueueBlock order e properties → Holds m p e → q + e.length ≤ m.length → r + e.length ≤ m.length →
      Placed q p e.length → Placed r q e.length →
      (GivesBack (queueLayout properties) (fun n => convertPacketQueueAt order n m q p)
          (fun n mid => convertPacketQueueAt order.flip n mid r q) r e ↔
        (HtonInPlace order p q r → be16 e 4 = host16 e 4)) := by
  refine ⟨?_,?_,?_⟩
  · intro e src dst back p q r h hsrc hdst hback
    exact action_gives_back h hsrc hdst hback
  · intro e m actions p q r h hm hq hr
    exact flow_gives_back h hm hq hr
  · intro e m properties p q r h hm hq hr hqp hrq
    exact queue_gives_back_iff h hm hq hr hqp hrq

-- One queue with a minimum rate, in host order, by itself or before room for a copy.
def rateProperty : Bytes := [1,0,16,0,0,0,0,0,232,3,0,0,0,0,0,0]

def rateQueue : Bytes := [7,0,0,0,24,0,0,0] ++ rateProperty

theorem rateQueue_block : QueueBlock .host rateQueue [rateProperty] := by
  refine ⟨by decide,by decide,by decide,?_⟩
  intro b hb
  obtain rfl := List.mem_singleton.mp hb
  exact ⟨by decide,.inr ⟨by decide,by decide⟩⟩

theorem converters_give_back_apart :
    GivesBack (queueLayout [rateProperty])
      (fun n => convertPacketQueueAt .host n (rateQueue ++ List.replicate 24 0) 24 0)
      (fun n mid => convertPacketQueueAt .net n mid 0 24) 0 rateQueue := by
  refine ((converters_give_back_iff .host).2.2 rateQueue _ [rateProperty] 0 24 0 rateQueue_block ?_ ?_ ?_
    ?_ ?_).mpr ?_
  · rfl
  · decide
  · decide
  · exact .inr (.inl (by decide))
  · exact .inr (.inr (by decide))
  · intro hplace
    exact absurd (show 24 = 0 from hplace) (by decide)

theorem hton_packet_queue_in_place : QueueBlock .host rateQueue [rateProperty] ∧
    ¬ GivesBack (queueLayout [rateProperty]) (fun n => convertPacketQueueAt .host n rateQueue 0 0)
      (fun n mid => convertPacketQueueAt .net n mid 0 0) 0 rateQueue := by
  refine ⟨rateQueue_block,fun hback => ?_⟩
  have hlen := (queue_gives_back_iff rateQueue_block (holds_self _) (by decide) (by decide) (.inl rfl)
    (.inl rfl)).mp hback rfl
  exact absurd hlen (by decide)

end Trema.OpenFlow
