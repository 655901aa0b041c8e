import Trema.OpenFlow.Converters

namespace Trema.OpenFlow

open Library Layout

def SameUpToPads (layout : List Field) (e e' : Bytes) : Prop :=
  e'.length = e.length ∧ blank layout e' = blank layout e

def actionLayout (order : Order) (b : Bytes) : List Field :=
  match ActionType.ofCode (order.u16 b 0) with
  | none => []
  | some t => actionFields t ++ [.copy (b.length - size (actionFields t))]

def flowLayout (order : Order) (actions : List Bytes) : List Field :=
  flowStatsFields ++ actions.flatMap (actionLayout order)

def propertyLayout (b : Bytes) : List Field :=
  [.swap 2,.swap 2,.zero 4] ++ if b.length = 16 then [.swap 2,.zero 6] else []

def queueLayout (properties : List Bytes) : List Field :=
  packetQueueFields ++ properties.flatMap propertyLayout

section Parts

variable {layout : Bytes → List Field} {bs cs : List Bytes} {b c : Bytes}

-- `c` stands where `b` stood: the same length and the same fields.
structure Restores (layout : Bytes → List Field) (b c : Bytes) : Prop where
  sized : size (layout b) = b.length
  same : SameUpToPads (layout b) b c

theorem blank_flatten (h : List.Forall₂ (Restores layout) bs cs) :
    cs.flatten.length = bs.flatten.length ∧ size (bs.flatMap layout) = bs.flatten.length ∧
      blank (bs.flatMap layout) cs.flatten = blank (bs.flatMap layout) bs.flatten := by
  induction h with
  | nil => exact ⟨rfl,rfl,rfl⟩
  | @cons b c bs cs hb _ ih =>
    obtain ⟨hlength,hsize,hblank⟩ := ih
    obtain ⟨hsized,hlen,hsame⟩ := hb
    refine ⟨?_,?_,?_⟩
    · rw [List.flatten_cons,List.flatten_cons,List.length_append,List.length_append,hlen,hlength]
    · rw [List.flatMap_cons,size_append,hsized,hsize,List.flatten_cons,List.length_append]
    · rw [List.flatMap_cons,List.flatten_cons,List.flatten_cons,blank_append,blank_append,
        blank_front _ (hsized.trans hlen.symm).le,blank_front _ hsized.le,
        List.drop_left' (hlen.trans hsized.symm),List.drop_left' hsized.symm,hsame,hblank]

theorem restores_entry {head : List Field} {e e' : Bytes} (hsize : size head ≤ e.length)
    (hhead : e'.take (size head) = blank head e)
    (htail : e.drop (size head) = bs.flatten ∧ e'.drop (size head) = cs.flatten)
    (h : List.Forall₂ (Restores layout) bs cs) :
    SameUpToPads (head ++ bs.flatMap layout) e e' := by
  obtain ⟨hlength,_,hblank⟩ := blank_flatten h
  have hfirst : (e'.take (size head)).length = size head := by
    rw [hhead,length_blank hsize]
  have hlen : e'.length = e.length := by
    have hall := congrArg List.length (List.take_append_drop (size head) e')
    have hold := congrArg List.length (List.take_append_drop (size head) e)
    rw [List.length_append,hfirst,htail.2,hlength,← htail.1] at hall
    rw [List.length_append,List.length_take_of_le hsize] at hold
    exact hall.symm.trans hold
  refine ⟨hlen,?_⟩
  rw [blank_append,blank_append,htail.1,htail.2,hblank]
  congr 1
  conv_lhs => rw [← List.take_append_drop (size head) e']
  rw [blank_front _ hfirst.ge,hhead,blank_blank hsize]

end Parts

section Actions

variable {order : Order} {t : ActionType} {b : Bytes}

theorem actionImage_twice (h : ActionBlock order t b) :
    actionImage t (actionImage t b) = blank (actionFields t) b ++ b.drop (size (actionFields t)) := by
  have hclen : (cells (actionFields t) b).length = size (actionFields t) := length_cells h.readEnd_le
  rw [actionImage,actionImage,cells_append _ ((readEnd_le_size _).trans hclen.ge),cells_cells h.fits,
    List.drop_left' hclen]

theorem ActionBlock.restores (h : ActionBlock order t b) :
    Restores (actionLayout order) b (actionImage t (actionImage t b)) := by
  have hblen : (blank (actionFields t) b).length = size (actionFields t) := length_blank h.fits
  have hrest : (b.drop (size (actionFields t))).length = b.length - size (actionFields t) :=
    List.length_drop
  have hfits := h.fits
  have hlayout : actionLayout order b =
      actionFields t ++ [.copy (b.length - size (actionFields t))] := by
    simp only [actionLayout,h.type]
  refine ⟨?_,?_,?_⟩
  · rw [hlayout,size_append]
    simp only [size,Field.width]
    omega
  · rw [actionImage_twice h,List.length_append]
    omega
  · rw [hlayout,actionImage_twice h,blank_append,blank_append,blank_front _ hblen.ge,
      blank_blank hfits,List.drop_left' hblen]

theorem IsAction.restores (h : IsAction order b) :
    Restores (actionLayout order) b (convertBlock order.flip (convertBlock order b)) := by
  obtain ⟨t,ht⟩ := h
  rw [convertBlock_eq ht,convertBlock_eq ht.image]
  exact ht.restores

end Actions

section Properties

variable {order : Order} {b old old' : Bytes}

theorem cells_head_twice (hb : 8 ≤ b.length) (rest : Bytes) :
    cells [.swap 2,.swap 2] (cells [.swap 2,.swap 2] b ++ rest) = b.take 4 := by
  have hclen := length_propertyHead hb
  have htwice : cells [.swap 2,.swap 2] (cells [.swap 2,.swap 2] b) = blank [.swap 2,.swap 2] b :=
    cells_cells (show 4 ≤ b.length by omega)
  have htake : b.take 4 = b.take 2 ++ (b.drop 2).take 2 := List.take_add (l := b) (i := 2) (j := 2)
  rw [cells_append _ (show 4 ≤ _ by rw [hclen]),htwice,htake]
  simp [blank,Field.width]

theorem propertyImage_over (h : PropertyBlock order b) (hold : old.length = b.length) :
    propertyImage order.flip (propertyImage order b old) old' = b.take 4 ++
      if order.u16 b 0 = ofpqtMinRate then slice old' 4 4 ++ (slice b 8 2 ++ old'.drop 10)
      else old'.drop 4 := by
  have hb := h.length_ge
  have hclen := length_propertyHead hb
  conv_lhs => rw [propertyImage,u16_propertyImage h (by decide) (by omega)]
  rw [propertyImage,cells_head_twice hb]
  congr 1
  split
  · rename_i hrate
    rcases h.sized with ⟨hnone,_⟩ | ⟨_,hlen⟩
    · rw [hnone] at hrate
      exact absurd hrate (by decide)
    · have hpad : (slice old 4 4).length = 4 := length_slice (by omega)
      have hnew : (slice b 8 2).reverse.length = 2 := by
        rw [List.length_reverse,length_slice (by omega)]
      have hread : slice (cells [.swap 2,.swap 2] b ++
          (slice old 4 4 ++ ((slice b 8 2).reverse ++ old.drop 10))) 8 2 = (slice b 8 2).reverse := by
        rw [slice_append_right _ (by omega),hclen,slice_append_right _ (by omega),hpad,
          slice_append_left (by omega),slice_whole hnew]
      rw [hread,List.reverse_reverse]
  · rfl

theorem blank_property (b x : Bytes) : blank (propertyLayout b) x =
    x.take 4 ++ (List.replicate 4 0 ++ if b.length = 16 then slice x 8 2 ++ List.replicate 6 0 else []) := by
  have htake : x.take 4 = x.take 2 ++ (x.drop 2).take 2 := List.take_add (l := x) (i := 2) (j := 2)
  rw [propertyLayout,htake]
  split
  · simp [blank,Field.width,slice]
  · simp [blank,Field.width]

theorem size_propertyLayout (h : PropertyBlock order b) : size (propertyLayout b) = b.length := by
  rw [propertyLayout]
  rcases h.sized with ⟨_,hlen⟩ | ⟨_,hlen⟩
  · rw [hlen]
    rfl
  · rw [hlen]
    rfl

theorem PropertyBlock.restores (h : PropertyBlock order b) (hold : old.length = b.length)
    (hold' : old'.length = b.length) :
    Restores propertyLayout b (propertyImage order.flip (propertyImage order b old) old') := by
  have hb := h.length_ge
  have himage := length_propertyImage h hold
  have hlen := length_propertyImage (h.image hold) (hold'.trans himage.symm)
  have hfirst : (b.take 4).length = 4 := List.length_take_of_le (by omega)
  refine ⟨size_propertyLayout h,hlen.trans himage,?_⟩
  rw [propertyImage_over h hold,blank_property,blank_property,List.take_left' hfirst]
  congr 2
  split
  · rename_i hsixteen
    rcases h.sized with ⟨_,hlen⟩ | ⟨hrate,_⟩
    · omega
    · have hpad : (slice old' 4 4).length = 4 := length_slice (by omega)
      have hnew : (slice b 8 2).length = 2 := length_slice (by omega)
      rw [if_pos hrate,slice_append_right _ (by omega),hfirst,slice_append_right _ (by omega),hpad,
        slice_append_left (by omega),slice_whole hnew]
  · rfl

end Properties

-- One converter and then its opposite, and what stands at `r` afterwards.
def GivesBack (layout : List Field) (first : Nat → Exec Bytes) (second : Nat → Bytes → Exec Bytes)
    (r : Nat) (e : Bytes) : Prop :=
  ∃ mid out, Yields first (.ok mid) ∧ Yields (fun n => second n mid) (.ok out) ∧
    SameUpToPads layout e (slice out r e.length)

theorem GivesBack.of_held {layout : List Field} {first : Nat → Exec Bytes}
    {second : Nat → Bytes → Exec Bytes} {r : Nat} {e e' mid out : Bytes}
    (hfirst : Yields first (.ok mid)) (hsecond : Yields (fun n => second n mid) (.ok out))
    (hheld : Holds out r e') (hsame : SameUpToPads layout e e') : GivesBack layout first second r e := by
  refine ⟨mid,out,hfirst,hsecond,?_⟩
  rw [← hsame.1,hheld]
  exact hsame

section Entries

variable {order : Order} {e src dst back m : Bytes} {p q r : Nat}

theorem action_gives_back (h : IsAction order e) (hsrc : Holds src p e)
    (hdst : q + e.length ≤ dst.length) (hback : r + e.length ≤ back.length) :
    GivesBack (actionLayout order e) (fun _ => convertActionTo order src p dst q)
      (fun _ mid => convertActionTo order.flip mid q back r) r e := by
  have hsame := h.restores.same
  obtain ⟨t,ht⟩ := h
  have hlen := length_actionImage ht
  rw [convertBlock_eq ht,convertBlock_eq ht.image] at hsame
  obtain ⟨mid,hmid,hfirst⟩ := convertActionTo_holds ht hsrc hdst
  obtain ⟨out,hout,hsecond⟩ := convertActionTo_holds ht.image (holds_of_store hmid)
    (hlen.symm ▸ hback)
  exact .of_held (yields_ok hfirst) (yields_ok hsecond) (holds_of_store hout) hsame

theorem blank_head {head : List Field} (rest : Bytes) (hsize : size head ≤ e.length) :
    cells head (cells head e ++ rest) = blank head e := by
  have hclen : (cells head e).length = size head := length_cells ((readEnd_le_size _).trans hsize)
  rw [cells_append _ ((readEnd_le_size _).trans hclen.ge),cells_cells hsize]

theorem flow_restores {actions : List Bytes} (h : FlowBlock order e actions) :
    SameUpToPads (flowLayout order actions) e
      (flowImage order.flip (flowImage order e actions) (actions.map (convertBlock order))) := by
  have hsize : size flowStatsFields ≤ e.length := size_flowStatsFields ▸ h.fits
  have hblank : (blank flowStatsFields e).length = size flowStatsFields := length_blank hsize
  have hparts : List.Forall₂ (Restores (actionLayout order)) actions
      ((actions.map (convertBlock order)).map (convertBlock order.flip)) := by
    have hblocks := h.blocks
    clear h
    induction actions with
    | nil => exact .nil
    | cons b bs ih =>
      exact .cons (hblocks b (by simp)).restores (ih fun c hc => hblocks c (by simp [hc]))
  rw [flowImage,flowImage,blank_head _ hsize]
  exact restores_entry hsize (List.take_left' hblank)
    ⟨size_flowStatsFields ▸ h.tail,List.drop_left' hblank⟩ hparts

theorem flow_gives_back {actions : List Bytes} (h : FlowBlock order e actions) (hm : Holds m p e)
    (hq : q + e.length ≤ m.length) (hr : r + e.length ≤ m.length) :
    GivesBack (flowLayout order actions) (fun n => convertFlowStatsAt order n m q p)
      (fun n mid => convertFlowStatsAt order.flip n mid r q) r e := by
  have hlen := length_flowImage h
  obtain ⟨mid,hmid,hfirst⟩ := convertFlowStatsAt_yields h hm hq
  have hmidlen := length_of_store hmid
  obtain ⟨out,hout,hsecond⟩ := convertFlowStatsAt_yields h.image (holds_of_store hmid)
    (show r + _ ≤ mid.length by omega)
  exact .of_held hfirst hsecond (holds_of_store hout) (flow_restores h)

theorem queue_restores {properties olds olds' : List Bytes} (h : QueueBlock order e properties)
    (holds : List.Forall₂ (fun b old => old.length = b.length) properties olds)
    (holds' : List.Forall₂ (fun b old => old.length = b.length) properties olds') :
    SameUpToPads (queueLayout properties) e (queueImage order.flip (queueImage order e properties olds)
      (List.zipWith (propertyImage order) properties olds) olds') := by
  have hsize : size packetQueueFields ≤ e.length := h.fits
  have hblank : (blank packetQueueFields e).length = size packetQueueFields := length_blank hsize
  have hparts : List.Forall₂ (Restores propertyLayout) properties (List.zipWith
      (propertyImage order.flip) (List.zipWith (propertyImage order) properties olds) olds') := by
    have hblocks := h.blocks
    clear h
    induction holds generalizing olds' with
    | nil =>
      cases holds'
      exact .nil
    | @cons b old bs olds hold _ ih =>
      obtain _ | ⟨hold',hrest⟩ := holds'
      exact .cons ((hblocks b (by simp)).restores hold hold') (ih hrest fun c hc => hblocks c (by simp [hc]))
  rw [queueImage,queueImage,blank_head _ hsize]
  exact restores_entry hsize (List.take_left' hblank) ⟨h.tail,List.drop_left' hblank⟩ hparts

end Entries

end Trema.OpenFlow
