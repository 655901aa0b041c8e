import Trema.OpenFlow.ApplicationInterface
import Trema.OpenFlow.Blocks

namespace Trema.OpenFlow

open Library Layout

theorem settled_decodeActions (message : Bytes) (p length : Nat) :
    Settled (fun n => decodeActions n message p length) :=
  settled_whileLoop (fun s => settled_const (decodeAction s)) _

theorem decodeAction_holds {b : Bytes} (hb : IsAction .net b) {s : ActionDecoding}
    (hm : Holds s.message s.p b) (hrem : b.length ≤ s.remaining) :
    ∃ m, store s.message s.p (convertBlock .net b) = (.ok m : Exec Bytes) ∧
      decodeAction s = .ok ⟨s.remaining - b.length,s.p + b.length,m,
        s.actions ++ [convertBlock .net b]⟩ := by
  obtain ⟨t,h⟩ := hb
  have hlen := length_actionImage h
  have hlarge := h.length_ge
  have hbound := hm.bound (by omega)
  rw [convertBlock_eq h]
  obtain ⟨m,hstore⟩ : ∃ m, store s.message s.p (actionImage t b) = (.ok m : Exec Bytes) :=
    exists_store (by omega)
  have hm' := holds_of_store hstore
  have hmlen := length_of_store hstore
  have hread : Order.host.read16 m (s.p + 2) = .ok (Order.host.u16 (actionImage t b) 2) :=
    Order.read16_holds hm' (by omega)
  have hu16 : (Order.host.u16 (actionImage t b) 2).toNat = b.length :=
    h.image.len.trans hlen
  have hload : load m s.p b.length = (.ok (actionImage t b) : Exec Bytes) := by
    rw [load_ok (by omega),← hlen,hm']
  refine ⟨m,hstore,?_⟩
  simp only [decodeAction,ntohAction,convertAction_holds h hm,ok_bind,hstore,hread,hu16,hload,
    subSize_of_le hrem]
  rfl

theorem reach_decodeActions {bs : List Bytes} (hbs : ∀ b ∈ bs, IsAction .net b) {m : Bytes}
    {p remaining : Nat} (acc : List Bytes) (hrem : remaining = (concat id bs).length)
    (hm : Holds m p (concat id bs)) (hp : p ≤ m.length) :
    ∃ m', store m p (concat (convertBlock .net) bs) = (.ok m' : Exec Bytes) ∧
      Reach (fun s => decide (0 < s.remaining)) (fun _ => decodeAction) ⟨remaining,p,m,acc⟩
        ⟨0,p + remaining,m',acc ++ bs.map (convertBlock .net)⟩ := by
  induction bs generalizing m p remaining acc with
  | nil =>
    simp only [concat_nil,List.length_nil] at hrem
    subst hrem
    refine ⟨m,store_nil hp,?_⟩
    rw [List.map_nil,List.append_nil]
    exact .refl
  | cons b bs ih =>
    simp only [concat_cons,id_eq,List.length_append] at hrem hm
    obtain ⟨hmb,hmrest⟩ := Holds.append.mp hm
    have hb := hbs b (by simp)
    have hlarge : 8 ≤ b.length := hb.choose_spec.length_ge
    have hconv := hb.convert.2
    obtain ⟨m₁,hstore,hstep⟩ := decodeAction_holds hb (s := ⟨remaining,p,m,acc⟩) hmb
      (by simp only; omega)
    have hlen := length_of_store hstore
    have hbound := hmb.bound (by omega)
    simp only at hstore hstep hlen
    have hrest : Holds m₁ (p + b.length) (concat id bs) :=
      hmrest.frame hstore (.inr (by rw [hconv]))
    have hsub : remaining - b.length = (concat id bs).length := by omega
    rw [hsub] at hstep
    obtain ⟨m',hlast,hreach⟩ := ih (fun c hc => hbs c (by simp [hc]))
      (acc ++ [convertBlock .net b]) rfl hrest (by omega)
    refine ⟨m',store_then_store hstore (by rw [hconv]; exact hlast),?_⟩
    refine .head ⟨by simp only [decide_eq_true_eq]; omega,by simp,0,hstep⟩ ?_
    have hpos : p + b.length + (concat id bs).length = p + remaining := by omega
    rw [hpos,List.append_assoc] at hreach
    exact hreach

theorem decodeActions_yields {bs : List Bytes} (hbs : ∀ b ∈ bs, IsAction .net b) {m : Bytes}
    {p : Nat} (hm : Holds m p bs.flatten) (hp : p ≤ m.length) :
    ∃ m', store m p (concat (convertBlock .net) bs) = (.ok m' : Exec Bytes) ∧
      Yields (fun n => decodeActions n m p bs.flatten.length)
        (.ok ⟨0,p + bs.flatten.length,m',bs.map (convertBlock .net)⟩) := by
  rw [← concat_id] at hm ⊢
  obtain ⟨m',hstore,hreach⟩ := reach_decodeActions hbs [] rfl hm hp
  exact ⟨m',hstore,(whileLoop_yields_ok (fun s => settled_const (decodeAction s)) _ _).mpr
    ⟨hreach,rfl⟩⟩

-- An action that nobody has checked, of a type the converter knows and with room for its fields.
structure ContainedAction (t : ActionType) (b : Bytes) : Prop where
  type : ActionType.ofCode (be16 b 0) = some t
  len : (be16 b 2).toNat = b.length
  fits : size (actionFields t) ≤ b.length

section Contained

variable {t : ActionType} {b : Bytes}

theorem ContainedAction.readEnd_le (h : ContainedAction t b) : readEnd (actionFields t) ≤ b.length :=
  le_trans (readEnd_le_size _) h.fits

theorem ContainedAction.length_ge (h : ContainedAction t b) : 8 ≤ b.length :=
  le_trans (actionFields_size t) h.fits

theorem ntohAction_contained {m : Bytes} {p : Nat} (h : ContainedAction t b) (hm : Holds m p b) :
    ∃ body, ntohAction m p = .ok (cells (actionFields t) b ++ body) ∧
      size (actionFields t) + body.length ≤ b.length := by
  have h8 := h.length_ge
  have hfits := h.fits
  have htype : Order.net.read16 m p = .ok (be16 b 0) := Order.read16_holds (i := 0) hm (by omega)
  have hcells : convert (actionFields t) m p = (.ok (cells (actionFields t) b) : Exec Bytes) :=
    hm.convert h.readEnd_le (by omega)
  by_cases hv : t = .vendor
  · subst hv
    have hlen : Order.net.read16 m (p + 2) = .ok (be16 b 2) := Order.read16_holds hm (by omega)
    have hbody : load m (p + 8) (b.length - 8) = (.ok (slice m (p + 8) (b.length - 8)) : Exec Bytes) :=
      load_ok (by have := hm.bound (by omega); omega)
    refine ⟨slice m (p + 8) (b.length - 8),?_,?_⟩
    · simp only [ntohAction,convertAction,htype,ok_bind,h.type,convertActionVendor,hcells,hlen,h.len,
        subSize_of_le h8,hbody]
      rfl
    · have hsize : size (actionFields .vendor) = 8 := rfl
      have := hm.bound (by omega)
      rw [length_slice (by omega)]
      omega
  · refine ⟨[],?_,by simpa using hfits⟩
    rw [List.append_nil,← hcells]
    simp only [ntohAction,convertAction,htype,ok_bind,h.type]

theorem decodeAction_contained (h : ContainedAction t b) {s : ActionDecoding}
    (hm : Holds s.message s.p b) (hrem : b.length ≤ s.remaining) :
    ∃ out m action, store s.message s.p out = (.ok m : Exec Bytes) ∧ out.length ≤ b.length ∧
      decodeAction s = .ok ⟨s.remaining - b.length,s.p + b.length,m,s.actions ++ [action]⟩ := by
  obtain ⟨body,hconvert,hroom⟩ := ntohAction_contained h hm
  have h8 := actionFields_size t
  have hbound := hm.bound (by have := h.length_ge; omega)
  have hcells : (cells (actionFields t) b).length = size (actionFields t) := length_cells h.readEnd_le
  have hout : (cells (actionFields t) b ++ body).length ≤ b.length := by
    rw [List.length_append,hcells]
    exact hroom
  obtain ⟨m,hstore⟩ : ∃ m, store s.message s.p (cells (actionFields t) b ++ body) =
      (.ok m : Exec Bytes) := exists_store (by omega)
  have hread : Order.host.read16 m (s.p + 2) = .ok (be16 b 2) := by
    rw [Order.read16_holds (holds_of_store hstore) (by rw [List.length_append]; omega),
      Order.u16_append _ (by omega)]
    exact congrArg _ (Order.u16_cells .net (actionFields_head t).2 h.readEnd_le)
  have hload : load m s.p b.length = (.ok (slice m s.p b.length) : Exec Bytes) :=
    load_ok (by rw [length_of_store hstore]; exact hbound)
  refine ⟨_,m,slice m s.p b.length,hstore,hout,?_⟩
  simp only [decodeAction,hconvert,ok_bind,hstore,hread,h.len,hload,subSize_of_le hrem]
  rfl

theorem decodeActions_contained {bs : List Bytes} (hbs : ∀ b ∈ bs, ∃ t, ContainedAction t b)
    {s : ActionDecoding} (hrem : s.remaining = bs.flatten.length) (hm : Holds s.message s.p bs.flatten) :
    ∃ last, Reach (fun s => decide (0 < s.remaining)) (fun _ => decodeAction) s last ∧
      last.remaining = 0 := by
  induction bs generalizing s with
  | nil => exact ⟨s,.refl,hrem⟩
  | cons b bs ih =>
    rw [List.flatten_cons] at hrem hm
    rw [List.length_append] at hrem
    obtain ⟨hmb,hmrest⟩ := Holds.append.mp hm
    obtain ⟨t,ht⟩ := hbs b (by simp)
    have h8 := ht.length_ge
    obtain ⟨out,m,action,hstore,hout,hstep⟩ := decodeAction_contained ht hmb (by omega)
    obtain ⟨last,hreach,hzero⟩ := ih (fun c hc => hbs c (by simp [hc]))
      (s := ⟨s.remaining - b.length,s.p + b.length,m,s.actions ++ [action]⟩) (by simp only; omega)
      (hmrest.frame hstore (.inr (by omega)))
    exact ⟨last,.head ⟨by simp only [decide_eq_true_eq]; omega,by simp,0,hstep⟩ hreach,hzero⟩

end Contained

def hostActions (actions : List Bytes) : Option OpenflowActions :=
  if 0 < actions.flatten.length then
    some ⟨actions.length,actions.map (convertBlock .net)⟩
  else
    none

def tailOf (message : Bytes) (p : Nat) : Option Bytes :=
  if p < message.length then some (message.drop p) else none

section Handlers

variable {m : Bytes} {actions : List Bytes}

theorem result_decoded (p : Nat) :
    (⟨0,p,m,actions.map (convertBlock .net)⟩ : ActionDecoding).result actions.flatten.length =
      hostActions actions := by
  simp [ActionDecoding.result,hostActions]

theorem handlePacketOut_yields (hlen : (be16 m 2).toNat = m.length)
    (hal : (be16 m 14).toNat = actions.flatten.length) (hacts : ∀ b ∈ actions, IsAction .net b)
    (hm : Holds m 16 actions.flatten) (hroom : 16 + actions.flatten.length ≤ m.length)
    (handlers : Handlers) :
    Yields (fun n => handlePacketOut n handlers m) (.ok (if handlers .packetOut then
      [.packetOut (be32 m 4) (be32 m 8) (be16 m 12) (hostActions actions)
        (tailOf m (16 + actions.flatten.length))] else [])) := by
  obtain ⟨m',hstore,_,n,hn⟩ := decodeActions_yields hacts hm (by omega)
  have hl' := length_of_store hstore
  have hil := length_convertBlocks hacts
  have hhead : Holds m' 0 (m.take 16) := by
    refine Holds.frame ?_ hstore (.inl (by simp))
    rw [Holds,List.length_take,Nat.min_eq_left (by omega)]
    simp [slice]
  have hfield : ∀ off, off + 2 ≤ 16 → be16 m' off = be16 m off := by
    intro off hoff
    have h1 := hhead.be16 (i := off) (by rw [List.length_take]; omega)
    rw [Nat.zero_add] at h1
    rw [h1,be16,be16,slice,slice,List.drop_take,List.take_take,Nat.min_eq_left (by omega)]
  have htail : m'.drop (16 + actions.flatten.length) = m.drop (16 + actions.flatten.length) := by
    obtain ⟨hle,rfl⟩ := store_eq_ok.mp hstore
    have hpre : (m.take 16 ++ concat (convertBlock .net) actions).length =
        16 + actions.flatten.length := by
      rw [List.length_append,hil,List.length_take]
      omega
    rw [← hpre,List.drop_left' rfl,hil,hpre]
  have hsub : subSize (subSize m.length 16) actions.flatten.length =
      m.length - 16 - actions.flatten.length := by
    rw [show subSize m.length 16 = m.length - 16 from subSize_of_le (by omega),
      subSize_of_le (by omega)]
  refine ⟨by simp,n,?_⟩
  simp (disch := omega) only [handlePacketOut,net32_inside,net16_inside,ok_bind,hal,hn,
    hfield 14 (by omega),hfield 2 (by omega),hlen,hsub,result_decoded]
  by_cases hframe : 16 + actions.flatten.length < m.length
  · have hload : load m' (16 + actions.flatten.length) (m.length - 16 - actions.flatten.length) =
        (.ok (m.drop (16 + actions.flatten.length)) : Exec Bytes) := by
      rw [load_ok (by omega),slice,htail,List.take_of_length_le (by rw [List.length_drop]; omega)]
    rw [if_pos (by omega),hload,tailOf,if_pos hframe]
    rfl
  · rw [if_neg (by omega),tailOf,if_neg hframe]
    rfl

theorem handleFlowMod_decoded (hlen : (be16 m 2).toNat = m.length) (hmin : 72 ≤ m.length)
    {last : ActionDecoding} (hdecoded : Yields (fun n => decodeActions n m 72 (m.length - 72)) (.ok last))
    (handlers : Handlers) :
    Yields (fun n => handleFlowMod n handlers m) (.ok (if handlers .flowMod then
      [.flowMod (be32 m 4) (OfpMatch.ofHost (cells matchFields (m.drop 8))) (be64 m 48) (be16 m 56)
        (be16 m 58) (be16 m 60) (be16 m 62) (be32 m 64) (be16 m 68) (be16 m 70)
        (last.result (m.length - 72))] else [])) := by
  obtain ⟨_,n,hn⟩ := hdecoded
  have hmatch : ntohMatch m 8 = .ok (cells matchFields (m.drop 8)) :=
    convert_inside (show 8 + 40 ≤ m.length by omega)
  have hsub : subSize m.length 72 = m.length - 72 := subSize_of_le hmin
  refine ⟨by simp,n,?_⟩
  simp (disch := omega) only [handleFlowMod,net32_inside,net16_inside,net64_inside,ok_bind,hmatch,
    hlen,hsub,hn]
  rfl

theorem handleFlowMod_yields (hlen : (be16 m 2).toNat = m.length) (hmin : 72 ≤ m.length)
    (hacts : ∀ b ∈ actions, IsAction .net b) (htiles : m.drop 72 = actions.flatten)
    (handlers : Handlers) :
    Yields (fun n => handleFlowMod n handlers m) (.ok (if handlers .flowMod then
      [.flowMod (be32 m 4) (OfpMatch.ofHost (cells matchFields (m.drop 8))) (be64 m 48) (be16 m 56)
        (be16 m 58) (be16 m 60) (be16 m 62) (be32 m 64) (be16 m 68) (be16 m 70)
        (hostActions actions)] else [])) := by
  have hal : actions.flatten.length = m.length - 72 := by rw [← htiles,List.length_drop]
  have hm : Holds m 72 actions.flatten := by
    rw [Holds,slice,htiles,List.take_length]
  obtain ⟨m',_,hdecoded⟩ := decodeActions_yields hacts hm (by omega)
  rw [hal] at hdecoded
  have h := handleFlowMod_decoded hlen hmin hdecoded handlers
  rwa [← hal,result_decoded] at h

end Handlers

theorem converts_flowEntries (body : Bytes) :
    Converts (fun s => decide (0 < s.remaining)) (fun n => ntohFlowEntry n body) body Prod.fst
      (fun e _ => flowImage .net e.1 e.2) (fun e => FlowBlock .net e.1 e.2) where
  enters s h := by
    simp only [decide_eq_true_eq]
    omega
  large e h := by
    have := h.fits
    omega
  keeps e _ h _ := length_flowImage h
  steps := by
    rintro ⟨e,actions⟩ old s h hsrc _ _ hroom
    simp only at h hsrc hroom ⊢
    have hfits := h.fits
    have hlen := length_flowImage h
    obtain ⟨out,hout,hy⟩ := convertFlowStats_yields h hsrc hroom
    refine ⟨out,hout,by simp,?_⟩
    obtain ⟨_,n,hn⟩ := hy
    refine ⟨n,?_⟩
    have hread : Order.host.read16 out s.dst = .ok (Order.host.u16 (flowImage .net e actions) 0) :=
      Order.read16_holds (i := 0) (holds_of_store hout) (by omega)
    have hu16 : Order.host.u16 (flowImage .net e actions) 0 = Order.net.u16 e 0 := by
      rw [flowImage,Order.u16_append _ (by
        rw [length_cells (by rw [readEnd_flowStatsFields]; exact hfits),size_flowStatsFields]
        omega)]
      exact Order.u16_cells .net (by decide) (by rw [readEnd_flowStatsFields]; exact hfits)
    simp only [ntohFlowEntry,ntohFlowStats,hn,ok_bind,hread,hu16,h.length]
    rfl

theorem settled_ntohFlowEntry (body : Bytes) (s : Conversion) :
    Settled (fun n => ntohFlowEntry n body s) :=
  settled_bind (settled_convertFlowStats _ _ _ _ _) (fun _ => settled_const _)

theorem ntohFlowEntries_yields {entries : List (Bytes × List Bytes)}
    (h : ∀ e ∈ entries, FlowBlock .net e.1 e.2) {body dst : Bytes}
    (hbody : body = concat Prod.fst entries) (hlt : body.length < 65536)
    (hdst : dst.length = body.length) :
    Yields (fun n => ntohFlowEntries n body dst body.length)
      (.ok (concat (fun e => flowImage .net e.1 e.2) entries)) := by
  obtain ⟨out,hout,hreach⟩ := (converts_flowEntries body).reach_map h
    (show body.length = _ by rw [hbody]) hlt (p := 0) (q := 0) (by rw [← hbody]; exact holds_self body)
    (show 0 + body.length ≤ dst.length by omega)
  have himage : out = concat (fun e => flowImage .net e.1 e.2) entries := by
    refine (holds_of_store hout).of_length_eq ?_
    rw [length_of_store hout,hdst,hbody]
    exact length_concat fun e he => length_flowImage (h e he)
  obtain ⟨_,n,hn⟩ := (whileLoop_yields_ok (settled_ntohFlowEntry body) _ _).mpr ⟨hreach,rfl⟩
  refine ⟨by simp,n,?_⟩
  simp only [ntohFlowEntries,hn,ok_bind,himage]
  rfl

theorem converts_statsEntries {fs : List Field} (hsize : 8 ≤ size fs) (body : Bytes) :
    Converts (fun s => decide (0 < s.remaining)) (fun _ => ntohStatsEntry fs body) body id
      (fun b _ => cells fs b) (fun b => b.length = size fs) where
  enters s h := by
    simp only [decide_eq_true_eq]
    omega
  large b h := by
    simp only [id_eq]
    omega
  keeps b _ h _ := by
    simp only [id_eq]
    rw [length_cells (by rw [h]; exact readEnd_le_size fs),h]
  steps := by
    intro b old s h hsrc _ _ hroom
    simp only [id_eq] at hsrc hroom ⊢
    have hread : readEnd fs ≤ b.length := by
      rw [h]
      exact readEnd_le_size fs
    have hlen := length_cells hread
    have hconv : convert fs body s.src = (.ok (cells fs b) : Exec Bytes) :=
      hsrc.convert hread (by omega)
    obtain ⟨out,hout⟩ : ∃ out, store s.out s.dst (cells fs b) = (.ok out : Exec Bytes) :=
      exists_store (by omega)
    refine ⟨out,hout,by simp,0,?_⟩
    simp only [ntohStatsEntry,hconv,ok_bind,hout,h]
    rfl

theorem ntohStatsEntries_yields {fs : List Field} (hsize : 8 ≤ size fs) {bs : List Bytes}
    (h : ∀ b ∈ bs, b.length = size fs) {body dst : Bytes} (hbody : body = bs.flatten)
    (hlt : body.length < 65536) (hdst : dst.length = body.length) :
    Yields (fun n => ntohStatsEntries fs n body dst body.length)
      (.ok (concat (cells fs) bs)) := by
  rw [← concat_id] at hbody
  obtain ⟨out,hout,hreach⟩ := (converts_statsEntries hsize body).reach_map h
    (show body.length = _ by rw [hbody]) hlt (p := 0) (q := 0)
    (by rw [← hbody]; exact holds_self body) (show 0 + body.length ≤ dst.length by omega)
  have himage : out = concat (cells fs) bs := by
    refine (holds_of_store hout).of_length_eq ?_
    rw [length_of_store hout,hdst,hbody]
    refine length_concat fun b hb => ?_
    rw [length_cells (by rw [h b hb]; exact readEnd_le_size fs),id_eq,h b hb]
  obtain ⟨_,n,hn⟩ := (whileLoop_yields_ok
    (fun s => settled_const (ntohStatsEntry fs body s)) _ _).mpr ⟨hreach,rfl⟩
  refine ⟨by simp,n,?_⟩
  simp only [ntohStatsEntries,hn,ok_bind,himage]
  rfl

def hostQueue (q : Bytes × List Bytes) : Bytes :=
  queueImage .net q.1 q.2 (q.2.map fun b => xcalloc b.length)

theorem cleared_properties (properties : List Bytes) :
    List.Forall₂ (fun b old => old.length = b.length) properties
      (properties.map fun b => xcalloc b.length) := by
  induction properties with
  | nil => exact .nil
  | cons b bs ih => exact .cons (by simp [xcalloc]) ih

theorem flatten_cleared (properties : List Bytes) :
    (properties.map fun b => xcalloc b.length).flatten = xcalloc properties.flatten.length := by
  induction properties with
  | nil => rfl
  | cons b bs ih =>
    rw [List.map_cons,List.flatten_cons,ih,List.flatten_cons,List.length_append]
    simp only [xcalloc,List.replicate_append_replicate]

theorem settled_decodeQueue (message : Bytes) (s : QueueDecoding) :
    Settled (fun n => decodeQueue n message s) :=
  settled_bind (settled_const _) (fun _ => settled_bind (settled_convertPacketQueue _ _ _ _ _)
    (fun _ => settled_const _))

theorem decodeQueue_yields {q : Bytes × List Bytes} (h : QueueBlock .net q.1 q.2) {message : Bytes}
    {s : QueueDecoding} (hm : Holds message s.p q.1) :
    Yields (fun n => decodeQueue n message s)
      (.ok ⟨sub16 s.remaining q.1.length,s.p + q.1.length,
        s.queues ++ [hostQueue q]⟩) := by
  obtain ⟨e,properties⟩ := q
  simp only at h hm ⊢
  have hfits := h.fits
  have hl : properties.flatten.length = e.length - 8 := by rw [← h.tail,List.length_drop]
  have hclear : Holds (xcalloc e.length) (0 + 8)
      (properties.map fun b => xcalloc b.length).flatten := by
    rw [flatten_cleared,hl]
    simp [Holds,slice,xcalloc]
  obtain ⟨out,hout,_,n,hn⟩ := convertPacketQueue_yields h (cleared_properties properties) hm hclear
    (by simp [xcalloc])
  have hilen := length_queueImage h (cleared_properties properties)
  have himage : out = hostQueue (e,properties) :=
    (holds_of_store hout).of_length_eq (by rw [length_of_store hout,hilen]; simp [xcalloc])
  have hlength : Order.net.read16 message (s.p + 4) = .ok (Order.net.u16 e 4) :=
    Order.read16_holds hm (by omega)
  have hread : Order.host.read16 out (0 + 4) = .ok (Order.host.u16 out 4) :=
    Order.read16_holds (holds_self out) (by rw [himage,hostQueue,hilen]; omega)
  have hu16 : Order.host.u16 out 4 = Order.net.u16 e 4 := by
    rw [himage,hostQueue,queueImage,Order.u16_append _ (by rw [length_queueHead hfits]; omega)]
    exact Order.u16_cells .net (by decide) (show 6 ≤ e.length by omega)
  rw [Nat.zero_add] at hread
  change net16 message (s.p + 4) = _ at hlength
  refine ⟨by simp,n,?_⟩
  simp only [decodeQueue,hlength,ok_bind,h.length,ntohPacketQueue,hn,hread,hu16]
  rw [himage]
  rfl

theorem reach_decodeQueues {qs : List (Bytes × List Bytes)}
    (hqs : ∀ q ∈ qs, QueueBlock .net q.1 q.2) {message : Bytes} {p remaining : Nat}
    (acc : List Bytes) (hrem : remaining = (concat Prod.fst qs).length) (hlt : remaining < 65536)
    (hm : Holds message p (concat Prod.fst qs)) :
    Reach (fun s => decide (0 < s.remaining)) (fun n => decodeQueue n message) ⟨remaining,p,acc⟩
      ⟨0,p + remaining,acc ++ qs.map hostQueue⟩ := by
  induction qs generalizing p remaining acc with
  | nil =>
    simp only [concat_nil,List.length_nil] at hrem
    subst hrem
    rw [List.map_nil,List.append_nil]
    exact .refl
  | cons q qs ih =>
    simp only [concat_cons,List.length_append] at hrem hm
    obtain ⟨hmq,hmrest⟩ := Holds.append.mp hm
    have hq := hqs q (by simp)
    have hfits := hq.fits
    have hstep := decodeQueue_yields hq (s := ⟨remaining,p,acc⟩) hmq
    have hsub : sub16 remaining q.1.length = (concat Prod.fst qs).length := by
      rw [sub16_of_le (by omega) (by omega)]
      omega
    simp only [hsub] at hstep
    have hreach := ih (fun c hc => hqs c (by simp [hc])) (acc ++ [hostQueue q]) rfl (by omega) hmrest
    refine .head ⟨by simp only [decide_eq_true_eq]; omega,hstep⟩ ?_
    have hpos : p + q.1.length + (concat Prod.fst qs).length = p + remaining := by omega
    rw [hpos,List.append_assoc] at hreach
    exact hreach

theorem net64_holds {m b : Bytes} {p i : Nat} (h : Holds m p b) (hi : i + 8 ≤ b.length) :
    net64 m (p + i) = (.ok (be64 b i) : Exec UInt64) := by
  rw [net64,within,if_pos (h.inside hi (by omega)),h.be64 hi]

theorem rewriteCookie_holds (lookup : UInt64 → Option UInt64) {e : Bytes} {actions : List Bytes}
    (h : FlowBlock .net e actions) {s : CookieRewriting} (hm : Holds s.message s.p e) :
    ∃ m, rewriteCookie lookup s = .ok ⟨s.bodyLength - e.length,s.p + e.length,m⟩ ∧
      m.length = s.message.length ∧
      ∀ q b, Holds s.message q b → s.p + e.length ≤ q → Holds m q b := by
  have hfits := h.fits
  have hbound := hm.bound (by omega)
  have hcookie := net64_holds hm (show 64 + 8 ≤ e.length by omega)
  have hsplit : Holds s.message s.p (slice e 0 2) := by
    have hs := hm.slice_eq (show 0 + 2 ≤ e.length by omega)
    rw [Holds,length_slice (by omega)]
    exact hs
  have hlen2 : (slice e 0 2).length = 2 := length_slice (by omega)
  have hfield : ∀ m, Holds m s.p (slice e 0 2) →
      net16 m s.p = (.ok (be16 e 0) : Exec UInt16) := by
    intro m hh
    have hr : Order.net.read16 m (s.p + 0) = .ok (Order.net.u16 (slice e 0 2) 0) :=
      Order.read16_holds hh (by omega)
    refine hr.trans (congrArg _ ?_)
    show be16 (slice e 0 2) 0 = be16 e 0
    rw [be16,slice_slice (by omega),be16]
  have hlength : (be16 e 0).toNat = e.length := h.length
  cases hl : lookup (be64 e 64) with
  | none =>
    refine ⟨s.message,?_,rfl,fun q b hq _ => hq⟩
    simp only [rewriteCookie,hcookie,ok_bind,hl]
    simp only [pure,Except.pure,ok_bind,hfield s.message hsplit,hlength]
  | some c =>
    obtain ⟨m,hstore⟩ : ∃ m, store s.message (s.p + 64) (toNet64 c) = (.ok m : Exec Bytes) :=
      exists_store (by simp; omega)
    have hkeep := hsplit.frame hstore (.inl (by omega))
    refine ⟨m,?_,length_of_store hstore,fun q b hq hle => hq.frame hstore (.inr ?_)⟩
    · simp only [rewriteCookie,hcookie,ok_bind,hl,hstore,hfield m hkeep,hlength]
      rfl
    · simp only [length_toNet64]
      omega

theorem rewriteCookies_yields (lookup : UInt64 → Option UInt64)
    {entries : List (Bytes × List Bytes)} (h : ∀ e ∈ entries, FlowBlock .net e.1 e.2) {m : Bytes}
    {p : Nat} (hm : Holds m p (concat Prod.fst entries)) :
    ∃ m', Yields (fun n => whileLoop (fun s => decide (0 < s.bodyLength)) (rewriteCookie lookup) n
      ⟨(concat Prod.fst entries).length,p,m⟩) (.ok m') := by
  have hreach : ∃ q m', Reach (fun s => decide (0 < s.bodyLength)) (fun _ => rewriteCookie lookup)
      ⟨(concat Prod.fst entries).length,p,m⟩ ⟨0,q,m'⟩ := by
    induction entries generalizing m p with
    | nil => exact ⟨p,m,.refl⟩
    | cons e es ih =>
      rw [concat_cons] at hm ⊢
      obtain ⟨hme,hmrest⟩ := Holds.append.mp hm
      have he := h e (by simp)
      have hfits := he.fits
      have hstep := rewriteCookie_holds lookup he
        (s := ⟨(e.1 ++ concat Prod.fst es).length,p,m⟩) hme
      obtain ⟨m₁,hstep,_,hframe⟩ := hstep
      obtain ⟨q,m',hreach⟩ := ih (fun c hc => h c (by simp [hc]))
        (hframe _ _ hmrest (by simp only; omega))
      refine ⟨q,m',.head ⟨?_,by simp,0,hstep⟩ ?_⟩
      · simp only [List.length_append,decide_eq_true_eq]
        omega
      · have hsub : (((e.1 ++ concat Prod.fst es).length : Int) - e.1.length) =
            (concat Prod.fst es).length := by
          simp only [List.length_append]
          omega
        simp only [hsub]
        exact hreach
  obtain ⟨q,m',hreach⟩ := hreach
  exact ⟨_,(whileLoop_yields_ok (fun s => settled_const (rewriteCookie lookup s)) _ _).mpr
    ⟨hreach,rfl⟩⟩

section Replies

variable {m : Bytes}

theorem handleStatsReply_eq (hlen : (be16 m 2).toNat = m.length) (hmin : 12 ≤ m.length)
    (n : Nat) (heap : Nat → UInt8) :
    handleStatsReply n heap true m = if 12 < m.length then do
        let converted ← ntohStatsBody n heap (be16 m 8) (m.drop 12) (m.length - 12)
        pure [⟨be32 m 4,be16 m 8,be16 m 10,some converted⟩]
      else
        pure [⟨be32 m 4,be16 m 8,be16 m 10,none⟩] := by
  have hlt := (be16 m 2).toNat_lt
  have hsub : sub16 m.length 12 = m.length - 12 := sub16_of_le hmin (by omega)
  have hfront : removeFrontBuffer m 12 = .ok (m.drop 12) := by
    rw [removeFrontBuffer,abortIf,if_neg (by omega)]
    rfl
  rw [handleStatsReply,abortIf,if_neg (by omega),ok_bind,net32_inside (by omega),ok_bind,
    net16_inside (by omega),ok_bind,net16_inside (by omega),ok_bind,net16_inside (by omega),ok_bind,
    hlen]
  simp only [hsub,hfront,ok_bind,if_true]
  by_cases h12 : 12 < m.length
  · rw [if_pos (by omega),if_pos h12]
  · rw [if_neg (by omega),if_neg h12]

theorem handleStatsReply_yields (hlen : (be16 m 2).toNat = m.length) (hmin : 12 < m.length)
    {heap : Nat → UInt8} {converted : Bytes}
    (h : Yields (fun n => ntohStatsBody n heap (be16 m 8) (m.drop 12) (m.length - 12))
      (.ok converted)) :
    Yields (fun n => handleStatsReply n heap true m)
      (.ok [⟨be32 m 4,be16 m 8,be16 m 10,some converted⟩]) := by
  obtain ⟨_,n,hn⟩ := h
  refine ⟨by simp,n,?_⟩
  simp only at hn
  simp only [handleStatsReply_eq hlen (by omega),if_pos hmin,hn,ok_bind]
  rfl

theorem handleStatsReply_empty (hlen : (be16 m 2).toNat = m.length) (hmin : m.length = 12)
    (n : Nat) (heap : Nat → UInt8) :
    handleStatsReply n heap true m = .ok [⟨be32 m 4,be16 m 8,be16 m 10,none⟩] := by
  rw [handleStatsReply_eq hlen (by omega),if_neg (by omega)]
  rfl

theorem handleStatsReply_unregistered (hmin : 12 ≤ m.length) (n : Nat) (heap : Nat → UInt8) :
    handleStatsReply n heap false m = .ok [] := by
  simp (disch := omega) only [handleStatsReply,abortIf,if_neg,ok_bind,net32_inside,net16_inside]
  rfl

theorem settled_queueLoop (s : QueueDecoding) :
    Settled (fun n => whileLoop (fun s => decide (0 < s.remaining)) (decodeQueue n m) n s) :=
  settled_whileLoop (settled_decodeQueue m) s

theorem handleQueueGetConfigReply_yields (hlen : (be16 m 2).toNat = m.length)
    {qs : List (Bytes × List Bytes)} (hqs : ∀ q ∈ qs, QueueBlock .net q.1 q.2) (hne : 16 < m.length)
    (htiles : m.drop 16 = concat Prod.fst qs) :
    Yields (fun n => handleQueueGetConfigReply n true m)
      (.ok [⟨be32 m 4,be16 m 8,qs.map hostQueue⟩]) := by
  have hlt := (be16 m 2).toNat_lt
  have htotal : m.length - 16 = (concat Prod.fst qs).length := by rw [← htiles,List.length_drop]
  have hm : Holds m 16 (concat Prod.fst qs) := by rw [Holds,slice,htiles,List.take_length]
  have hreach := reach_decodeQueues hqs [] htotal (by omega) hm
  obtain ⟨_,n,hn⟩ := (whileLoop_yields_ok (settled_decodeQueue m) _ _).mpr ⟨hreach,rfl⟩
  have hsub : sub16 m.length 16 = m.length - 16 := sub16_of_le (by omega) (by omega)
  refine ⟨by simp,n,?_⟩
  simp only at hn ⊢
  rw [handleQueueGetConfigReply,abortIf,if_neg (by omega),ok_bind,net32_inside (by omega),ok_bind,
    net16_inside (by omega),ok_bind,net16_inside (by omega),ok_bind,hlen]
  simp only [hsub,if_true,hn,ok_bind]
  rw [abortIf,if_neg (by omega)]
  rfl

theorem handleQueueGetConfigReply_unregistered (hmin : 16 ≤ m.length) (n : Nat) :
    handleQueueGetConfigReply n false m = .ok [] := by
  simp (disch := omega) only [handleQueueGetConfigReply,abortIf,if_neg,ok_bind,net32_inside,
    net16_inside]
  rfl

end Replies

end Trema.OpenFlow
