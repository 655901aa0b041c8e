import Trema.OpenFlow.ByteOrder
import Trema.Library.Region

namespace Trema.OpenFlow

open Library Layout

def Order.flip : Order → Order
  | .net => .host
  | .host => .net

theorem Order.read16_holds {order : Order} {m b : Bytes} {p i : Nat} (h : Holds m p b)
    (hi : i + 2 ≤ b.length) : order.read16 m (p + i) = .ok (order.u16 b i) := by
  have hin := h.inside hi (by omega)
  rw [Order.read16,within,if_pos hin]
  cases order with
  | net => exact congrArg _ (h.be16 hi)
  | host => exact congrArg _ (h.host16 hi)

theorem Order.u16_cells (order : Order) {fs : List Field} {b : Bytes} {off : Nat}
    (hf : fieldAt fs off = some (.swap 2)) (h : readEnd fs ≤ b.length) :
    order.flip.u16 (cells fs b) off = order.u16 b off := by
  have hs : slice (cells fs b) off 2 = (slice b off 2).reverse := slice_cells hf h
  cases order with
  | net => exact host16_cells hf h
  | host =>
    show be16 (cells fs b) off = host16 b off
    rw [be16,hs,beNat,List.reverse_reverse,host16]

theorem Order.u16_append {order : Order} {a : Bytes} (b : Bytes) {off : Nat}
    (h : off + 2 ≤ a.length) : order.u16 (a ++ b) off = order.u16 a off := by
  cases order with
  | net =>
    show be16 (a ++ b) off = be16 a off
    rw [be16,be16,slice_append_left h]
  | host =>
    show host16 (a ++ b) off = host16 a off
    rw [host16,host16,slice_append_left h]

structure ActionBlock (order : Order) (t : ActionType) (b : Bytes) : Prop where
  type : ActionType.ofCode (order.u16 b 0) = some t
  len : (order.u16 b 2).toNat = b.length
  fits : size (actionFields t) ≤ b.length
  sized : t ≠ .vendor → b.length = size (actionFields t)

def actionImage (t : ActionType) (b : Bytes) : Bytes :=
  cells (actionFields t) b ++ b.drop (size (actionFields t))

theorem actionFields_size (t : ActionType) : 8 ≤ size (actionFields t) := by
  cases t <;> decide

theorem actionFields_head (t : ActionType) :
    fieldAt (actionFields t) 0 = some (.swap 2) ∧ fieldAt (actionFields t) 2 = some (.swap 2) := by
  cases t <;> decide

section Actions

variable {order : Order} {t : ActionType} {b : Bytes}

theorem ActionBlock.readEnd_le (h : ActionBlock order t b) :
    readEnd (actionFields t) ≤ b.length := le_trans (readEnd_le_size _) h.fits

theorem ActionBlock.length_ge (h : ActionBlock order t b) : 8 ≤ b.length :=
  le_trans (actionFields_size t) h.fits

theorem length_actionImage (h : ActionBlock order t b) : (actionImage t b).length = b.length := by
  rw [actionImage,List.length_append,length_cells h.readEnd_le,List.length_drop]
  have := h.fits
  omega

theorem u16_actionImage (h : ActionBlock order t b) {off : Nat}
    (hf : fieldAt (actionFields t) off = some (.swap 2)) (hoff : off + 2 ≤ 8) :
    order.flip.u16 (actionImage t b) off = order.u16 b off := by
  have := actionFields_size t
  rw [actionImage,Order.u16_append _ (by rw [length_cells h.readEnd_le]; omega),
    Order.u16_cells order hf h.readEnd_le]

theorem ActionBlock.image (h : ActionBlock order t b) :
    ActionBlock order.flip t (actionImage t b) := by
  have hlen := length_actionImage h
  refine ⟨?_,?_,?_,?_⟩
  · rw [u16_actionImage h (actionFields_head t).1 (by omega)]
    exact h.type
  · rw [u16_actionImage h (actionFields_head t).2 (by omega),hlen]
    exact h.len
  · rw [hlen]
    exact h.fits
  · rw [hlen]
    exact h.sized

theorem convertAction_holds {m : Bytes} {p : Nat} (h : ActionBlock order t b) (hm : Holds m p b) :
    convertAction order m p = .ok (actionImage t b) := by
  have h8 := h.length_ge
  have htype : order.read16 m p = .ok (order.u16 b 0) :=
    Order.read16_holds (i := 0) hm (by omega)
  have hcells : convert (actionFields t) m p = (.ok (cells (actionFields t) b) : Exec Bytes) :=
    hm.convert h.readEnd_le (by omega)
  by_cases hv : t = .vendor
  · subst hv
    have hsub : subSize (order.u16 b 2).toNat 8 = b.length - 8 := by
      rw [h.len,subSize_of_le h8]
    have hbody : load m (p + 8) (b.length - 8) = (.ok (b.drop 8) : Exec Bytes) := by
      have hin := hm.bound (by omega)
      have hs : slice m (p + 8) (b.length - 8) = slice b 8 (b.length - 8) :=
        hm.slice_eq (by omega)
      rw [load_ok (by omega),hs,slice,List.take_of_length_le (by simp)]
    simp only [convertAction,htype,ok_bind,h.type,convertActionVendor,hcells,
      Order.read16_holds hm (show 2 + 2 ≤ b.length by omega),hsub,hbody]
    rfl
  · have hdrop : b.drop (size (actionFields t)) = [] := by
      rw [← h.sized hv,List.drop_length]
    have himage : actionImage t b = cells (actionFields t) b := by
      rw [actionImage,hdrop,List.append_nil]
    rw [himage,← hcells]
    simp only [convertAction,htype,ok_bind,h.type]

end Actions

section Loops

variable {ι : Type} {cond : Conversion → Bool} {step : Nat → Conversion → Exec Conversion}
  {src : Bytes} {wire : ι → Bytes}

structure Converts (cond : Conversion → Bool) (step : Nat → Conversion → Exec Conversion)
    (src : Bytes) (wire : ι → Bytes) (image : ι → Bytes → Bytes) (good : ι → Prop) : Prop where
  enters : ∀ s, 8 ≤ s.remaining → cond s = true
  large : ∀ b, good b → 8 ≤ (wire b).length
  keeps : ∀ b old, good b → old.length = (wire b).length →
    (image b old).length = (wire b).length
  steps : ∀ b old s, good b → Holds src s.src (wire b) → Holds s.out s.dst old →
    old.length = (wire b).length → s.dst + (wire b).length ≤ s.out.length →
    ∃ out, store s.out s.dst (image b old) = (.ok out : Exec Bytes) ∧
      Yields (fun n => step n s) (.ok ⟨sub16 s.remaining (wire b).length,
        s.src + (wire b).length,s.dst + (wire b).length,out⟩)

def concat (wire : ι → Bytes) (bs : List ι) : Bytes := (bs.map wire).flatten

@[simp] theorem concat_nil : concat wire [] = [] := rfl

@[simp] theorem concat_cons (b : ι) (bs : List ι) :
    concat wire (b :: bs) = wire b ++ concat wire bs := rfl

theorem Converts.reach_part {image : ι → Bytes → Bytes} {good : ι → Prop}
    (h : Converts cond step src wire image good) {bs : List ι} {olds : List Bytes}
    (hbs : List.Forall₂ (fun b old => good b ∧ old.length = (wire b).length) bs olds)
    {rest p q : Nat} {dst : Bytes} (hlt : (concat wire bs).length + rest < 65536)
    (hsrc : Holds src p (concat wire bs)) (hdst : Holds dst q olds.flatten)
    (hroom : q + (concat wire bs).length ≤ dst.length) :
    ∃ out, store dst q (List.zipWith image bs olds).flatten = (.ok out : Exec Bytes) ∧
      Reach cond step ⟨(concat wire bs).length + rest,p,q,dst⟩
        ⟨rest,p + (concat wire bs).length,q + (concat wire bs).length,out⟩ := by
  induction hbs generalizing p q dst with
  | nil =>
    refine ⟨dst,store_nil hroom,?_⟩
    rw [concat_nil,List.length_nil,Nat.zero_add]
    exact .refl
  | @cons b old bs olds hb _ ih =>
    obtain ⟨hgood,hold⟩ := hb
    simp only [concat_cons,List.length_append] at hlt hsrc hroom ⊢
    rw [List.flatten_cons] at hdst
    obtain ⟨hsb,hsrest⟩ := Holds.append.mp hsrc
    obtain ⟨hdb,hdrest⟩ := Holds.append.mp hdst
    have hlarge := h.large b hgood
    obtain ⟨out,hout,hy⟩ := h.steps b old
      ⟨(wire b).length + (concat wire bs).length + rest,p,q,dst⟩ hgood hsb hdb hold (by simp only; omega)
    have hkeep := h.keeps b old hgood hold
    have hlen : out.length = dst.length := length_of_store hout
    have hsub : sub16 ((wire b).length + (concat wire bs).length + rest) (wire b).length =
        (concat wire bs).length + rest := by
      rw [sub16_of_le (by omega) (by omega)]
      omega
    have hframe : Holds out (q + (wire b).length) olds.flatten := by
      rw [hold] at hdrest
      exact hdrest.frame hout (.inr (by simp only; omega))
    simp only [hsub] at hy
    obtain ⟨last,hlast,hreach⟩ := ih (by omega) hsrest hframe (by omega)
    refine ⟨last,?_,?_⟩
    · rw [List.zipWith_cons_cons,List.flatten_cons]
      exact store_then_store hout (by rw [hkeep]; exact hlast)
    · refine .head ⟨h.enters _ (by simp only; omega),hy⟩ ?_
      rw [Nat.add_assoc p,Nat.add_assoc q] at hreach
      exact hreach

theorem Converts.reach {image : ι → Bytes → Bytes} {good : ι → Prop}
    (h : Converts cond step src wire image good) {bs : List ι} {olds : List Bytes}
    (hbs : List.Forall₂ (fun b old => good b ∧ old.length = (wire b).length) bs olds)
    {remaining p q : Nat} {dst : Bytes} (hrem : remaining = (concat wire bs).length)
    (hlt : remaining < 65536) (hsrc : Holds src p (concat wire bs))
    (hdst : Holds dst q olds.flatten) (hroom : q + remaining ≤ dst.length) :
    ∃ out, store dst q (List.zipWith image bs olds).flatten = (.ok out : Exec Bytes) ∧
      Reach cond step ⟨remaining,p,q,dst⟩ ⟨0,p + remaining,q + remaining,out⟩ := by
  subst hrem
  exact h.reach_part hbs (show (concat wire bs).length + 0 < 65536 from hlt) hsrc hdst hroom

theorem exists_split (wire : ι → Bytes) (bs : List ι) (old : Bytes)
    (h : old.length = (concat wire bs).length) :
    ∃ olds : List Bytes, old = olds.flatten ∧
      List.Forall₂ (fun b o => o.length = (wire b).length) bs olds := by
  induction bs generalizing old with
  | nil => exact ⟨[],by simpa using h,.nil⟩
  | cons b bs ih =>
    simp only [concat_cons,List.length_append] at h
    obtain ⟨olds,hrest,hall⟩ := ih (old.drop (wire b).length) (by rw [List.length_drop]; omega)
    refine ⟨old.take (wire b).length :: olds,?_,.cons (by rw [List.length_take]; omega) hall⟩
    rw [List.flatten_cons,← hrest,List.take_append_drop]

theorem forall₂_and {good : ι → Prop} {bs : List ι} {olds : List Bytes} {R : ι → Bytes → Prop}
    (hbs : ∀ b ∈ bs, good b) (h : List.Forall₂ R bs olds) :
    List.Forall₂ (fun b old => good b ∧ R b old) bs olds := by
  induction h with
  | nil => exact .nil
  | cons hab _ ih => exact .cons ⟨hbs _ (by simp),hab⟩ (ih fun b hb => hbs b (by simp [hb]))

theorem Converts.reach_map {image : ι → Bytes} {good : ι → Prop}
    (h : Converts cond step src wire (fun b _ => image b) good) {bs : List ι}
    (hbs : ∀ b ∈ bs, good b) {remaining p q : Nat} {dst : Bytes}
    (hrem : remaining = (concat wire bs).length) (hlt : remaining < 65536)
    (hsrc : Holds src p (concat wire bs)) (hroom : q + remaining ≤ dst.length) :
    ∃ out, store dst q (concat image bs) = (.ok out : Exec Bytes) ∧
      Reach cond step ⟨remaining,p,q,dst⟩ ⟨0,p + remaining,q + remaining,out⟩ := by
  obtain ⟨olds,hsplit,hall⟩ := exists_split wire bs (slice dst q remaining)
    (by rw [length_slice hroom,hrem])
  have hzip : List.zipWith (fun b (_ : Bytes) => image b) bs olds = bs.map image := by
    clear hsplit hbs hrem hsrc
    induction hall with
    | nil => rfl
    | cons _ _ ih => rw [List.zipWith_cons_cons,List.map_cons,ih]
  have hdst : Holds dst q olds.flatten := hsplit ▸ holds_slice hroom
  rw [concat,← hzip]
  exact h.reach (forall₂_and hbs hall) hrem hlt hsrc hdst hroom

theorem length_concat {image : ι → Bytes} {bs : List ι}
    (h : ∀ b ∈ bs, (image b).length = (wire b).length) :
    (concat image bs).length = (concat wire bs).length := by
  induction bs with
  | nil => rfl
  | cons b bs ih =>
    rw [concat_cons,concat_cons,List.length_append,List.length_append,h b (by simp),
      ih fun c hc => h c (by simp [hc])]

theorem concat_id (bs : List Bytes) : concat id bs = bs.flatten := by simp [concat]

end Loops

def IsAction (order : Order) (b : Bytes) : Prop := ∃ t, ActionBlock order t b

def convertBlock (order : Order) (b : Bytes) : Bytes :=
  match ActionType.ofCode (order.u16 b 0) with
  | some t => actionImage t b
  | none => b

theorem convertBlock_eq {order : Order} {t : ActionType} {b : Bytes} (h : ActionBlock order t b) :
    convertBlock order b = actionImage t b := by
  simp [convertBlock,h.type]

theorem IsAction.convert {order : Order} {b : Bytes} (h : IsAction order b) :
    IsAction order.flip (convertBlock order b) ∧ (convertBlock order b).length = b.length := by
  obtain ⟨t,ht⟩ := h
  rw [convertBlock_eq ht]
  exact ⟨⟨t,ht.image⟩,length_actionImage ht⟩

theorem converts_actions (order : Order) (fs : Bytes) :
    Converts (fun s => decide (8 ≤ s.remaining)) (fun _ => convertActionStep order fs) fs id
      (fun b _ => convertBlock order b) (IsAction order) where
  enters s h := by simpa using h
  large b := by
    rintro ⟨_,h⟩
    exact h.length_ge
  keeps b _ h _ := h.convert.2
  steps := by
    rintro b old s ⟨t,h⟩ hsrc _ _ hroom
    simp only [id_eq] at hsrc hroom ⊢
    have hlen := length_actionImage h
    have hlarge := h.length_ge
    obtain ⟨out,hout⟩ : ∃ out, store s.out s.dst (actionImage t b) = (.ok out : Exec Bytes) :=
      exists_store (by omega)
    refine ⟨out,by rw [convertBlock_eq h]; exact hout,by simp,0,?_⟩
    simp only [convertActionStep,convertAction_holds h hsrc,ok_bind,hout,
      Order.read16_holds hsrc (show 2 + 2 ≤ b.length by omega),h.len]
    rfl

structure FlowBlock (order : Order) (e : Bytes) (actions : List Bytes) : Prop where
  length : (order.u16 e 0).toNat = e.length
  fits : 88 ≤ e.length
  tail : e.drop 88 = actions.flatten
  blocks : ∀ b ∈ actions, IsAction order b

def flowImage (order : Order) (e : Bytes) (actions : List Bytes) : Bytes :=
  cells flowStatsFields e ++ concat (convertBlock order) actions

theorem size_flowStatsFields : size flowStatsFields = 88 := by decide

theorem readEnd_flowStatsFields : readEnd flowStatsFields = 88 := by decide

theorem length_convertBlocks {order : Order} {bs : List Bytes} (h : ∀ b ∈ bs, IsAction order b) :
    (concat (convertBlock order) bs).length = bs.flatten.length := by
  rw [← concat_id]
  exact length_concat fun b hb => (h b hb).convert.2

theorem length_flowImage {order : Order} {e : Bytes} {actions : List Bytes}
    (h : FlowBlock order e actions) : (flowImage order e actions).length = e.length := by
  have hl : actions.flatten.length = e.length - 88 := by rw [← h.tail,List.length_drop]
  have hf := h.fits
  rw [flowImage,List.length_append,length_convertBlocks h.blocks,
    length_cells (by rw [readEnd_flowStatsFields]; exact hf),size_flowStatsFields]
  omega

theorem u16_flowImage {order : Order} {e : Bytes} {actions : List Bytes} (h : FlowBlock order e actions)
    {off : Nat} (hf : fieldAt flowStatsFields off = some (.swap 2)) (hoff : off + 2 ≤ 88) :
    order.flip.u16 (flowImage order e actions) off = order.u16 e off := by
  have hread : readEnd flowStatsFields ≤ e.length := by
    rw [readEnd_flowStatsFields]
    exact h.fits
  rw [flowImage,Order.u16_append _ (by rw [length_cells hread,size_flowStatsFields]; exact hoff),
    Order.u16_cells order hf hread]

theorem FlowBlock.image {order : Order} {e : Bytes} {actions : List Bytes}
    (h : FlowBlock order e actions) :
    FlowBlock order.flip (flowImage order e actions) (actions.map (convertBlock order)) := by
  have hlen := length_flowImage h
  refine ⟨?_,by rw [hlen]; exact h.fits,?_,?_⟩
  · rw [u16_flowImage h (by decide) (by omega),hlen]
    exact h.length
  · refine List.drop_left' ?_
    rw [length_cells (by rw [readEnd_flowStatsFields]; exact h.fits),size_flowStatsFields]
  · intro c hc
    obtain ⟨b,hb,rfl⟩ := List.mem_map.mp hc
    exact (h.blocks b hb).convert.1

theorem settled_convertFlowStats (order : Order) (src : Bytes) (p : Nat) (dst : Bytes) (q : Nat) :
    Settled (fun n => convertFlowStats order n src p dst q) :=
  settled_bind (settled_const _) (fun _ => settled_bind (settled_const _) (fun fs =>
    settled_bind (settled_const _) (fun _ => settled_bind (settled_const _) (fun _ =>
      settled_bind (settled_whileLoop (fun s => settled_const (convertActionStep order fs s)) _)
        (fun _ => settled_const _)))))

theorem FlowBlock.head {order : Order} {e : Bytes} {actions : List Bytes}
    (h : FlowBlock order e actions) :
    convert flowStatsFields e 0 = (.ok (cells flowStatsFields e) : Exec Bytes) ∧
      (cells flowStatsFields e).length = 88 := by
  have hfits := h.fits
  have hread : readEnd flowStatsFields ≤ e.length := by
    rw [readEnd_flowStatsFields]
    exact hfits
  exact ⟨(holds_self e).convert hread (by omega),length_cells hread⟩

-- The part of the converters behind the fixed fields, whichever way the loop finds the lengths.
theorem FlowBlock.loop {order : Order} {e : Bytes} {actions : List Bytes}
    {step : Conversion → Exec Conversion} (h : FlowBlock order e actions)
    (hconverts : Converts (fun s => decide (8 ≤ s.remaining)) (fun _ => step) e id
      (fun b _ => convertBlock order b) (IsAction order))
    {dst mid : Bytes} {q : Nat} (hroom : q + e.length ≤ dst.length)
    (hmid : store dst q (cells flowStatsFields e) = (.ok mid : Exec Bytes)) :
    ∃ out, store dst q (flowImage order e actions) = (.ok out : Exec Bytes) ∧
      Yields (fun n => whileLoop (fun s => decide (8 ≤ s.remaining)) step n
        ⟨sub16 e.length 88,88,q + 88,mid⟩)
        (.ok ⟨0,88 + (e.length - 88),q + 88 + (e.length - 88),out⟩) := by
  have hfits := h.fits
  have hlt : e.length < 65536 := h.length ▸ (order.u16 e 0).toNat_lt
  have hl : actions.flatten.length = e.length - 88 := by rw [← h.tail,List.length_drop]
  have hmidlen := length_of_store hmid
  have hacts : Holds e 88 actions.flatten := by
    have hd := (holds_self e).drop 88 hfits
    rwa [Nat.zero_add,h.tail] at hd
  rw [← concat_id] at hl hacts
  obtain ⟨out,hout,hreach⟩ := hconverts.reach_map h.blocks hl.symm (by omega) hacts
    (show q + 88 + (e.length - 88) ≤ mid.length by omega)
  refine ⟨out,store_then_store hmid (by rw [h.head.2]; exact hout),?_⟩
  refine (whileLoop_yields_ok (fun s => settled_const (step s)) _ _).mpr ⟨?_,rfl⟩
  rw [sub16_of_le hfits hlt]
  exact hreach

theorem convertFlowStats_yields {order : Order} {e : Bytes} {actions : List Bytes}
    (h : FlowBlock order e actions) {src dst : Bytes} {p q : Nat} (hsrc : Holds src p e)
    (hroom : q + e.length ≤ dst.length) :
    ∃ out, store dst q (flowImage order e actions) = (.ok out : Exec Bytes) ∧
      Yields (fun n => convertFlowStats order n src p dst q) (.ok out) := by
  have hfits := h.fits
  have hread : order.read16 src p = .ok (order.u16 e 0) :=
    Order.read16_holds (i := 0) hsrc (by omega)
  have hload : load src p e.length = (.ok e : Exec Bytes) := by
    rw [load_ok (hsrc.bound (by omega)),hsrc]
  obtain ⟨hcells,hclen⟩ := h.head
  obtain ⟨mid,hmid⟩ : ∃ mid, store dst q (cells flowStatsFields e) = (.ok mid : Exec Bytes) :=
    exists_store (by omega)
  obtain ⟨out,hout,_,n,hn⟩ := h.loop (converts_actions order e) hroom hmid
  refine ⟨out,hout,by simp,n,?_⟩
  simp only [convertFlowStats,hread,ok_bind,h.length,hload,hcells,hmid,hn]
  rfl

structure PropertyBlock (order : Order) (b : Bytes) : Prop where
  len : (order.u16 b 2).toNat = b.length
  sized : (order.u16 b 0 = ofpqtNone ∧ b.length = 8) ∨ (order.u16 b 0 = ofpqtMinRate ∧ b.length = 16)

def propertyImage (order : Order) (b old : Bytes) : Bytes :=
  cells [.swap 2,.swap 2] b ++ if order.u16 b 0 = ofpqtMinRate then
    slice old 4 4 ++ ((slice b 8 2).reverse ++ old.drop 10)
  else
    old.drop 4

theorem PropertyBlock.length_ge {order : Order} {b : Bytes} (h : PropertyBlock order b) :
    8 ≤ b.length := by
  rcases h.sized with ⟨_,h⟩ | ⟨_,h⟩ <;> omega

theorem length_propertyHead {b : Bytes} (h : 8 ≤ b.length) :
    (cells [.swap 2,.swap 2] b).length = 4 :=
  length_cells (show 4 ≤ b.length by omega)

theorem length_propertyImage {order : Order} {b old : Bytes} (h : PropertyBlock order b)
    (hold : old.length = b.length) : (propertyImage order b old).length = b.length := by
  have hb := h.length_ge
  rw [propertyImage,List.length_append,length_propertyHead hb]
  rcases h.sized with ⟨hp,hl⟩ | ⟨hp,hl⟩
  · rw [if_neg (by rw [hp]; decide),List.length_drop]
    omega
  · rw [if_pos hp]
    simp only [List.length_append,List.length_reverse,List.length_drop]
    rw [length_slice (by omega),length_slice (by omega)]
    omega

theorem u16_propertyImage {order : Order} {b old : Bytes} (h : PropertyBlock order b) {off : Nat}
    (hf : fieldAt [.swap 2,.swap 2] off = some (.swap 2)) (hoff : off + 2 ≤ 4) :
    order.flip.u16 (propertyImage order b old) off = order.u16 b off := by
  have hb := h.length_ge
  rw [propertyImage,Order.u16_append _ (by rw [length_propertyHead hb]; exact hoff),
    Order.u16_cells order hf (show 4 ≤ b.length by omega)]

theorem PropertyBlock.image {order : Order} {b old : Bytes} (h : PropertyBlock order b)
    (hold : old.length = b.length) : PropertyBlock order.flip (propertyImage order b old) := by
  have hlen := length_propertyImage h hold
  refine ⟨?_,?_⟩
  · rw [u16_propertyImage h (by decide) (by omega),hlen]
    exact h.len
  · rw [u16_propertyImage h (by decide) (by omega),hlen]
    exact h.sized

theorem convertQueueProperty_holds {order : Order} {b old src dst : Bytes} {p q : Nat}
    (h : PropertyBlock order b) (hsrc : Holds src p b) (hdst : Holds dst q old)
    (hold : old.length = b.length) (hroom : q + b.length ≤ dst.length) :
    ∃ out, store dst q (propertyImage order b old) = (.ok out : Exec Bytes) ∧
      convertQueueProperty order src p dst q = .ok out := by
  have hb := h.length_ge
  have hhead := length_propertyHead hb
  have hread : order.read16 src p = .ok (order.u16 b 0) :=
    Order.read16_holds (i := 0) hsrc (by omega)
  have hlen0 : ¬ order.u16 b 2 = 0 := by
    intro h0
    have := h.len
    rw [h0] at this
    simp at this
    omega
  have hload : load src p b.length = (.ok b : Exec Bytes) := by
    rw [load_ok (hsrc.bound (by omega)),hsrc]
  have hcells : convert [.swap 2,.swap 2] b 0 = (.ok (cells [.swap 2,.swap 2] b) : Exec Bytes) :=
    (holds_self b).convert (show 4 ≤ b.length by omega) (by omega)
  obtain ⟨mid,hmid⟩ : ∃ mid, store dst q (cells [.swap 2,.swap 2] b) = (.ok mid : Exec Bytes) :=
    exists_store (by omega)
  have hmidlen := length_of_store hmid
  rcases h.sized with ⟨hp,hl⟩ | ⟨hp,hl⟩
  · refine ⟨mid,?_,?_⟩
    · rw [propertyImage,if_neg (by rw [hp]; decide)]
      refine store_prefix hmid ?_ (by rw [hhead,List.length_drop]; omega)
      rw [hhead]
      exact hdst.drop 4 (by omega)
    · have hle : ¬ ofpqtMinRate < ofpqtNone := by decide
      have hne : ¬ ofpqtNone = ofpqtMinRate := by decide
      simp only [convertQueueProperty,hread,ok_bind,hp,abortIf,hle,if_false,
        Order.read16_holds hsrc (show 2 + 2 ≤ b.length by omega),hlen0,h.len,hload,hcells,hmid,hne]
      rfl
  · have hrate : convert [.swap 2] b 8 = (.ok (slice b 8 2).reverse : Exec Bytes) := by
      rw [convert_inside (show 8 + 2 ≤ b.length by omega)]
      simp [cells,slice]
    have hrlen : (slice b 8 2).reverse.length = 2 := by
      rw [List.length_reverse,length_slice (by omega)]
    obtain ⟨out,hout⟩ : ∃ out, store mid (q + 8) (slice b 8 2).reverse = (.ok out : Exec Bytes) :=
      exists_store (by omega)
    have holdlen : (slice old 4 4).length = 4 := length_slice (by omega)
    have hsame : store mid (q + 4) (slice old 4 4) = (.ok mid : Exec Bytes) := by
      refine store_same (Holds.frame ?_ hmid (.inr (by omega))) (by omega)
      rw [Holds,holdlen,hdst.slice_eq (by omega)]
    refine ⟨out,?_,?_⟩
    · rw [propertyImage,if_pos hp]
      refine store_then_store hmid ?_
      rw [hhead]
      refine store_then_store hsame ?_
      rw [holdlen]
      refine store_prefix hout ?_ (by rw [hrlen,List.length_drop]; omega)
      rw [hrlen]
      exact (hdst.drop 10 (by omega)).frame hmid (.inr (by omega))
    · have hle : ¬ ofpqtMinRate < ofpqtMinRate := by decide
      simp only [convertQueueProperty,hread,ok_bind,hp,abortIf,hle,if_false,
        Order.read16_holds hsrc (show 2 + 2 ≤ b.length by omega),hlen0,h.len,hload,hcells,hmid,
        if_true,hrate,hout]

theorem converts_properties (order : Order) (pq : Bytes) :
    Converts (fun s => decide (8 ≤ s.remaining)) (fun _ => convertPropertyStep order pq) pq id
      (propertyImage order) (PropertyBlock order) where
  enters s h := by simpa using h
  large b h := h.length_ge
  keeps b old h := length_propertyImage h
  steps := by
    intro b old s h hsrc hdst hold hroom
    simp only [id_eq] at hsrc hold hroom ⊢
    have hb := h.length_ge
    obtain ⟨out,hout,hconv⟩ := convertQueueProperty_holds h hsrc hdst hold hroom
    refine ⟨out,hout,by simp,0,?_⟩
    simp only [convertPropertyStep,hconv,ok_bind,
      Order.read16_holds hsrc (show 2 + 2 ≤ b.length by omega),h.len]
    rfl

structure QueueBlock (order : Order) (e : Bytes) (properties : List Bytes) : Prop where
  length : (order.u16 e 4).toNat = e.length
  fits : 8 ≤ e.length
  tail : e.drop 8 = properties.flatten
  blocks : ∀ b ∈ properties, PropertyBlock order b

def queueImage (order : Order) (e : Bytes) (properties olds : List Bytes) : Bytes :=
  cells packetQueueFields e ++ (List.zipWith (propertyImage order) properties olds).flatten

theorem length_queueHead {e : Bytes} (h : 8 ≤ e.length) :
    (cells packetQueueFields e).length = 8 :=
  length_cells (show 6 ≤ e.length by omega)

theorem length_propertyImages {order : Order} {bs olds : List Bytes}
    (hblocks : ∀ b ∈ bs, PropertyBlock order b)
    (hall : List.Forall₂ (fun b old => old.length = b.length) bs olds) :
    (List.zipWith (propertyImage order) bs olds).flatten.length = bs.flatten.length := by
  induction hall with
  | nil => rfl
  | cons hab _ ih =>
    rw [List.zipWith_cons_cons,List.flatten_cons,List.flatten_cons,List.length_append,
      List.length_append,length_propertyImage (hblocks _ (by simp)) hab,
      ih fun b hb => hblocks b (by simp [hb])]

theorem length_queueImage {order : Order} {e : Bytes} {properties olds : List Bytes}
    (h : QueueBlock order e properties)
    (holds : List.Forall₂ (fun b old => old.length = b.length) properties olds) :
    (queueImage order e properties olds).length = e.length := by
  have hl : properties.flatten.length = e.length - 8 := by rw [← h.tail,List.length_drop]
  have hfits := h.fits
  rw [queueImage,List.length_append,length_queueHead hfits,length_propertyImages h.blocks holds,hl]
  omega

theorem propertyImages_blocks {order : Order} {bs olds : List Bytes}
    (hblocks : ∀ b ∈ bs, PropertyBlock order b)
    (hall : List.Forall₂ (fun b old => old.length = b.length) bs olds) :
    ∀ c ∈ List.zipWith (propertyImage order) bs olds, PropertyBlock order.flip c := by
  induction hall with
  | nil => simp
  | @cons b old bs olds hab _ ih =>
    intro c hc
    rw [List.zipWith_cons_cons] at hc
    rcases List.mem_cons.mp hc with rfl | hc
    · exact (hblocks b (by simp)).image hab
    · exact ih (fun d hd => hblocks d (by simp [hd])) c hc

theorem QueueBlock.image {order : Order} {e : Bytes} {properties olds : List Bytes}
    (h : QueueBlock order e properties)
    (holds : List.Forall₂ (fun b old => old.length = b.length) properties olds) :
    QueueBlock order.flip (queueImage order e properties olds)
      (List.zipWith (propertyImage order) properties olds) := by
  have hlen := length_queueImage h holds
  have hfits := h.fits
  have hhead := length_queueHead hfits
  have hread : readEnd packetQueueFields ≤ e.length := show 6 ≤ e.length by omega
  have hfield : fieldAt packetQueueFields 4 = some (.swap 2) := by decide
  refine ⟨?_,by rw [hlen]; exact h.fits,List.drop_left' hhead,propertyImages_blocks h.blocks holds⟩
  rw [queueImage,Order.u16_append _ (by omega),Order.u16_cells order hfield hread]
  exact h.length.trans hlen.symm

theorem settled_convertPacketQueue (order : Order) (src : Bytes) (p : Nat) (dst : Bytes) (q : Nat) :
    Settled (fun n => convertPacketQueue order n src p dst q) :=
  settled_bind (settled_const _) (fun _ => settled_bind (settled_const _) (fun _ =>
    settled_bind (settled_const _) (fun pq => settled_bind (settled_const _) (fun _ =>
      settled_bind (settled_const _) (fun _ =>
        settled_bind (settled_whileLoop (fun s => settled_const (convertPropertyStep order pq s)) _)
          (fun _ => settled_const _))))))

theorem QueueBlock.len_ne_zero {order : Order} {e : Bytes} {properties : List Bytes}
    (h : QueueBlock order e properties) : ¬ order.u16 e 4 = 0 := by
  intro h0
  have hlen := h.length
  have hfits := h.fits
  rw [h0] at hlen
  simp at hlen
  omega

theorem QueueBlock.head {order : Order} {e : Bytes} {properties : List Bytes}
    (h : QueueBlock order e properties) :
    convert packetQueueFields e 0 = (.ok (cells packetQueueFields e) : Exec Bytes) := by
  have hfits := h.fits
  exact (holds_self e).convert (show 6 ≤ e.length by omega) (by omega)

theorem QueueBlock.loop {order : Order} {e : Bytes} {properties olds : List Bytes}
    {step : Conversion → Exec Conversion} (h : QueueBlock order e properties)
    (holds : List.Forall₂ (fun b old => old.length = b.length) properties olds)
    (hconverts : Converts (fun s => decide (8 ≤ s.remaining)) (fun _ => step) e id
      (propertyImage order) (PropertyBlock order))
    {dst mid : Bytes} {q : Nat} (hdst : Holds dst (q + 8) olds.flatten)
    (hroom : q + e.length ≤ dst.length)
    (hmid : store dst q (cells packetQueueFields e) = (.ok mid : Exec Bytes)) :
    ∃ out, store dst q (queueImage order e properties olds) = (.ok out : Exec Bytes) ∧
      Yields (fun n => whileLoop (fun s => decide (8 ≤ s.remaining)) step n
        ⟨sub16 e.length 8,8,q + 8,mid⟩)
        (.ok ⟨0,8 + (e.length - 8),q + 8 + (e.length - 8),out⟩) := by
  have hfits := h.fits
  have hlt : e.length < 65536 := h.length ▸ (order.u16 e 4).toNat_lt
  have hl : properties.flatten.length = e.length - 8 := by rw [← h.tail,List.length_drop]
  have hclen := length_queueHead hfits
  have hmidlen := length_of_store hmid
  have hprops : Holds e 8 properties.flatten := by
    have hd := (holds_self e).drop 8 hfits
    rwa [Nat.zero_add,h.tail] at hd
  rw [← concat_id] at hl hprops
  obtain ⟨out,hout,hreach⟩ := hconverts.reach (forall₂_and h.blocks holds)
    hl.symm (by omega) hprops
    (hdst.frame hmid (.inr (by omega))) (show q + 8 + (e.length - 8) ≤ mid.length by omega)
  refine ⟨out,store_then_store hmid (by rw [hclen]; exact hout),?_⟩
  refine (whileLoop_yields_ok (fun s => settled_const (step s)) _ _).mpr ⟨?_,rfl⟩
  rw [sub16_of_le hfits hlt]
  exact hreach

theorem convertPacketQueue_yields {order : Order} {e : Bytes} {properties olds : List Bytes}
    (h : QueueBlock order e properties)
    (holds : List.Forall₂ (fun b old => old.length = b.length) properties olds)
    {src dst : Bytes} {p q : Nat} (hsrc : Holds src p e) (hdst : Holds dst (q + 8) olds.flatten)
    (hroom : q + e.length ≤ dst.length) :
    ∃ out, store dst q (queueImage order e properties olds) = (.ok out : Exec Bytes) ∧
      Yields (fun n => convertPacketQueue order n src p dst q) (.ok out) := by
  have hfits := h.fits
  have hread : order.read16 src (p + 4) = .ok (order.u16 e 4) := Order.read16_holds hsrc (by omega)
  have hload : load src p e.length = (.ok e : Exec Bytes) := by
    rw [load_ok (hsrc.bound (by omega)),hsrc]
  obtain ⟨mid,hmid⟩ : ∃ mid, store dst q (cells packetQueueFields e) = (.ok mid : Exec Bytes) :=
    exists_store (by rw [length_queueHead hfits]; omega)
  obtain ⟨out,hout,_,n,hn⟩ := h.loop holds (converts_properties order e) hdst hroom hmid
  refine ⟨out,hout,by simp,n,?_⟩
  simp only [convertPacketQueue,hread,ok_bind,abortIf,h.len_ne_zero,if_false,h.length,hload,h.head,
    hmid,hn]
  rfl

end Trema.OpenFlow
