import Trema.OpenFlow.Contexts
import Trema.OpenFlow.Delivery

namespace Trema.OpenFlow

open Library
open PacketinFilter (CString)

structure Request where
  transactionId : UInt32
  origin : Origin
  message : Bytes
deriving DecidableEq

namespace InterfaceEvent

def request : InterfaceEvent → Option Request
  | .remote message _ => some ⟨be32 message 4,.secureChannel,message⟩
  | .service tag data _ =>
    if tag = messengerOpenflowMessage then
      let length := (be16 data 8).toNat
      let message := data.drop (10 + length)
      some ⟨be32 message 4,.service (strndup data 10 length),message⟩
    else none
  | _ => none

def time : InterfaceEvent → Int
  | .remote _ now => now
  | .service _ _ now => now
  | .age now => now
  | _ => 0

-- The event is no aging round at that time or later.
def AgesBefore (time : Int) (e : InterfaceEvent) : Prop := ∀ now, e = .age now → now < time

end InterfaceEvent

namespace SwitchInterface

variable {heap : Nat → UInt8} {fuel : Nat} {handlers : Handlers} {s s' s₁ s₂ : SwitchInterface} {c : OpenflowContext}
  {e : InterfaceEvent} {events : List InterfaceEvent} {r : Request} {message data : Bytes} {now : Int} {x : UInt32}

theorem handle_contexts {result : Bool × SwitchInterface} (h : s.handle fuel handlers message = .ok result) :
    result.2.contexts = s.contexts := by
  rw [handle,bind_eq_ok] at h
  obtain ⟨handled,_,h⟩ := h
  rw [← Except.ok.inj h]

theorem remote_contexts {result : Bool × SwitchInterface}
    (h : s.handleSecureChannelMessage fuel handlers message now = .ok result) :
    result.2.contexts = (s.saveContext (be32 message 4) message .secureChannel now).contexts := by
  rw [handleSecureChannelMessage,bind_eq_ok] at h
  obtain ⟨_,_,h⟩ := h
  rw [bind_eq_ok] at h
  obtain ⟨id,hid,h⟩ := h
  rw [← (net32_eq_ok.mp hid).2]
  exact handle_contexts h

theorem service_contexts {tag : UInt16} (h : s.handleLocalMessage fuel handlers tag data now = .ok s') :
    (tag = messengerOpenflowMessage → 8 ≤ (data.drop (10 + (be16 data 8).toNat)).length) ∧
    s'.contexts = if tag = messengerOpenflowMessage then
      (s.saveContext (be32 (data.drop (10 + (be16 data 8).toNat)) 4) (data.drop (10 + (be16 data 8).toNat))
        (.service (strndup data 10 (be16 data 8).toNat)) now).contexts
    else s.contexts := by
  rw [handleLocalMessage,bind_eq_ok] at h
  obtain ⟨_,_,h⟩ := h
  by_cases htag : tag = messengerOpenflowMessage
  · rw [if_pos htag] at h ⊢
    rw [bind_eq_ok] at h
    obtain ⟨length,hlength,h⟩ := h
    rw [bind_eq_ok] at h
    obtain ⟨_,_,h⟩ := h
    rw [bind_eq_ok] at h
    obtain ⟨message,hmessage,h⟩ := h
    rw [bind_eq_ok] at h
    obtain ⟨id,hid,h⟩ := h
    rw [bind_eq_ok] at h
    obtain ⟨handled,hhandled,h⟩ := h
    obtain ⟨hinside,hslice⟩ := load_eq_ok.mp hmessage
    have hfits : 10 + length.toNat ≤ data.length := by
      rw [subSize] at hinside
      split at hinside
      · assumption
      · omega
    have hdrop : message = data.drop (10 + length.toNat) := by
      rw [hslice,slice,subSize_of_le hfits,List.take_of_length_le (by rw [List.length_drop])]
    rw [← (net16_eq_ok.mp hlength).2,← hdrop,← (net32_eq_ok.mp hid).2,← Except.ok.inj h]
    exact ⟨fun _ => (net32_eq_ok.mp hid).1,handle_contexts hhandled⟩
  · rw [if_neg htag] at h ⊢
    rw [← Except.ok.inj h]
    exact ⟨fun h => absurd h htag,rfl⟩

theorem arrival_length (hr : e.request = some r) (h : s.step heap fuel handlers e = .ok s') : 8 ≤ r.message.length := by
  cases e with
  | remote message now =>
    obtain rfl := Option.some.inj hr
    rw [step,bind_eq_ok] at h
    obtain ⟨handled,hhandled,_⟩ := h
    rw [handleSecureChannelMessage,bind_eq_ok] at hhandled
    obtain ⟨_,_,hhandled⟩ := hhandled
    rw [bind_eq_ok] at hhandled
    obtain ⟨id,hid,_⟩ := hhandled
    exact (net32_eq_ok.mp hid).1
  | service tag data now =>
    rw [InterfaceEvent.request] at hr
    split at hr
    · rename_i htag
      obtain rfl := Option.some.inj hr
      exact (service_contexts h).1 htag
    · exact absurd hr (by simp)
  | age now => exact absurd hr (by simp [InterfaceEvent.request])
  | connection up => exact absurd hr (by simp [InterfaceEvent.request])
  | send message ok => exact absurd hr (by simp [InterfaceEvent.request])
  | sendError id type code ok => exact absurd hr (by simp [InterfaceEvent.request])

theorem sendTo_contexts {ok : Bool} {o : Origin} {result : Bool × SwitchInterface}
    (h : s.sendTo heap ok message o = .ok result) : result.2.contexts = s.contexts := by
  cases o with
  | secureChannel =>
    rw [sendTo,sendMessageToSecureChannel,bind_eq_ok] at h
    obtain ⟨_,_,h⟩ := h
    rw [bind_eq_ok] at h
    obtain ⟨_,_,h⟩ := h
    rw [← Except.ok.inj h]
  | service name =>
    rw [sendTo,sendOpenflowMessageToLocal,bind_eq_ok] at h
    obtain ⟨_,_,h⟩ := h
    rw [← Except.ok.inj h]

theorem send_contexts {ok : Bool} {result : Bool × SwitchInterface}
    (h : s.switchSendOpenflowMessage heap ok message = .ok result) : result.2.contexts = s.contexts := by
  rw [switchSendOpenflowMessage,bind_eq_ok] at h
  obtain ⟨_,_,h⟩ := h
  rw [bind_eq_ok] at h
  obtain ⟨id,_,h⟩ := h
  cases hc : s.lookupContext id with
  | none =>
    rw [hc] at h
    exact sendTo_contexts h
  | some c =>
    rw [hc] at h
    exact sendTo_contexts h

theorem sendError_contexts {type code : UInt16} {ok : Bool} {result : Bool × SwitchInterface}
    (h : s.sendErrorMessage heap ok x type code = .ok result) : result.2.contexts = s.contexts := by
  rw [sendErrorMessage] at h
  cases hd : s.errorData x type code with
  | none =>
    rw [hd] at h
    rw [← Except.ok.inj h]
  | some data =>
    rw [hd] at h
    simp only [bind_eq_ok] at h
    obtain ⟨err,_,h⟩ := h
    exact send_contexts h

-- A request is saved, an aging round deletes, and nothing else touches the contexts.
theorem step_contexts (h : s.step heap fuel handlers e = .ok s') :
    (∃ r, e.request = some r ∧ s'.contexts = (s.saveContext r.transactionId r.message r.origin e.time).contexts) ∨
    (∃ now, e = .age now ∧ s'.contexts = (s.ageContexts now).contexts) ∨
    (e.request = none ∧ (∀ now, e ≠ .age now) ∧ s'.contexts = s.contexts) := by
  cases e with
  | remote message now =>
    rw [step,bind_eq_ok] at h
    obtain ⟨handled,hhandled,h⟩ := h
    rw [← Except.ok.inj h]
    exact .inl ⟨_,rfl,remote_contexts hhandled⟩
  | service tag data now =>
    have hcontexts := (service_contexts h).2
    split at hcontexts
    · rename_i htag
      exact .inl ⟨_,if_pos htag,hcontexts⟩
    · rename_i htag
      exact .inr (.inr ⟨if_neg htag,by simp,hcontexts⟩)
  | age now =>
    rw [← Except.ok.inj h]
    exact .inr (.inl ⟨now,rfl,rfl⟩)
  | connection up =>
    rw [← Except.ok.inj h]
    exact .inr (.inr ⟨rfl,by simp,rfl⟩)
  | send message ok =>
    rw [step,bind_eq_ok] at h
    obtain ⟨sent,hsent,h⟩ := h
    rw [← Except.ok.inj h]
    exact .inr (.inr ⟨rfl,by simp,send_contexts hsent⟩)
  | sendError id type code ok =>
    rw [step,bind_eq_ok] at h
    obtain ⟨sent,hsent,h⟩ := h
    rw [← Except.ok.inj h]
    exact .inr (.inr ⟨rfl,by simp,sendError_contexts hsent⟩)

theorem arrival_contexts (hr : e.request = some r) (h : s.step heap fuel handlers e = .ok s') :
    s'.contexts = (s.saveContext r.transactionId r.message r.origin e.time).contexts := by
  rcases step_contexts h with ⟨r',hr',hcontexts⟩ | ⟨now,rfl,_⟩ | ⟨hnone,_⟩
  · rw [hr',Option.some.injEq] at hr
    rw [hcontexts,hr]
  · exact absurd hr (by simp [InterfaceEvent.request])
  · exact absurd (hnone.symm.trans hr) (by simp)

theorem run_keeps {I : SwitchInterface → Prop}
    (hstep : ∀ e ∈ events, ∀ s s', I s → s.step heap fuel handlers e = .ok s' → I s') (h : I s)
    (hok : s.run heap fuel handlers events = .ok s') : I s' := by
  induction events generalizing s with
  | nil =>
    rw [← Except.ok.inj hok]
    exact h
  | cons e events ih =>
    rw [SwitchInterface.run,bind_eq_ok] at hok
    obtain ⟨mid,hmid,hrest⟩ := hok
    refine ih (fun d hd => hstep d (List.mem_cons_of_mem _ hd)) ?_ hrest
    exact hstep e List.mem_cons_self s mid h hmid

-- The table has this context and no other of its id.
def Keeps (s : SwitchInterface) (c : OpenflowContext) : Prop :=
  s.contexts.filter (·.transactionId = c.transactionId) = [c]

theorem Keeps.lookup (h : Keeps s c) : s.lookupContext c.transactionId = some c := by
  rw [lookupContext,← List.head?_filter,h]
  rfl

theorem Keeps.of_contexts (h : Keeps s c) (hs : s'.contexts = s.contexts) : Keeps s' c := by
  rw [Keeps,hs]
  exact h

theorem keeps_save (h : s.lookupContext x = none) (o : Origin) :
    Keeps (s.saveContext x message o now) ⟨x,message,o,now⟩ := by
  have hnone : s.contexts.filter (·.transactionId = x) = [] :=
    List.filter_eq_nil_iff.mpr (List.find?_eq_none.mp h)
  rw [saveContext,if_neg (not_not.mpr h),Keeps,List.filter_cons_of_pos (by simp),hnone]

theorem Keeps.save (h : Keeps s c) (o : Origin) : Keeps (s.saveContext x message o now) c := by
  rw [saveContext]
  split
  · exact h
  · rename_i hnew
    have hne : x ≠ c.transactionId := by
      rintro rfl
      exact hnew (by simp [h.lookup])
    rw [Keeps,List.filter_cons_of_neg (by simpa using hne)]
    exact h

theorem Keeps.delete (h : Keeps s c) (hx : x ≠ c.transactionId) : Keeps (s.deleteContext x) c := by
  rw [Keeps,deleteContext,List.filter_filter]
  rw [Keeps] at h
  rw [← h]
  refine List.filter_congr fun d _ => ?_
  by_cases hd : d.transactionId = c.transactionId
  · simp [hd,hx.symm]
  · simp [hd]

theorem keeps_aged (hlive : now < c.createdAt + contextLifetime) (aged : List OpenflowContext)
    (haged : ∀ d ∈ aged, d.transactionId = c.transactionId → d = c) (h : Keeps s c) :
    Keeps (aged.foldl (ageContext now) s) c := by
  induction aged generalizing s with
  | nil => exact h
  | cons d aged ih =>
    refine ih (fun d hd => haged d (List.mem_cons_of_mem _ hd)) ?_
    rw [ageContext]
    split
    · rename_i hold
      refine h.delete fun hd => ?_
      rw [haged d List.mem_cons_self hd] at hold
      omega
    · exact h

theorem Keeps.age (h : Keeps s c) (hlive : now < c.createdAt + contextLifetime) : Keeps (s.ageContexts now) c := by
  refine keeps_aged hlive s.contexts (fun d hd hx => ?_) h
  have hmem : d ∈ s.contexts.filter (·.transactionId = c.transactionId) := List.mem_filter.mpr ⟨hd,by simpa using hx⟩
  rw [h] at hmem
  exact List.mem_singleton.mp hmem

theorem Keeps.step (h : Keeps s c) (hage : e.AgesBefore (c.createdAt + contextLifetime))
    (hok : s.step heap fuel handlers e = .ok s') : Keeps s' c := by
  rcases step_contexts hok with ⟨r,_,hcontexts⟩ | ⟨now,rfl,hcontexts⟩ | ⟨_,_,hcontexts⟩
  · exact (h.save _).of_contexts hcontexts
  · exact (h.age (hage now rfl)).of_contexts hcontexts
  · exact h.of_contexts hcontexts

theorem Keeps.run (h : Keeps s c) (hage : ∀ e ∈ events, e.AgesBefore (c.createdAt + contextLifetime))
    (hok : s.run heap fuel handlers events = .ok s') : Keeps s' c := by
  refine run_keeps (I := (Keeps · c)) ?_ h hok
  intro e he s s' h hstep
  exact h.step (hage e he) hstep

-- The table has no context of this id.
def Gone (s : SwitchInterface) (x : UInt32) : Prop := ∀ d ∈ s.contexts, d.transactionId ≠ x

theorem Gone.lookup (h : Gone s x) : s.lookupContext x = none :=
  List.find?_eq_none.mpr fun d hd => by simpa using h d hd

theorem Gone.of_contexts (h : Gone s x) (hs : s'.contexts = s.contexts) : Gone s' x := by
  rw [Gone,hs]
  exact h

theorem Gone.save {y : UInt32} (h : Gone s x) (hy : y ≠ x) (o : Origin) : Gone (s.saveContext y message o now) x := by
  rw [saveContext]
  split
  · exact h
  · intro d hd
    rcases List.mem_cons.mp hd with rfl | hd
    · exact hy
    · exact h d hd

theorem gone_delete : Gone (s.deleteContext x) x := by
  intro d hd
  exact of_decide_eq_true (List.mem_filter.mp hd).2

theorem Gone.delete {y : UInt32} (h : Gone s x) : Gone (s.deleteContext y) x :=
  fun d hd => h d (List.mem_of_mem_filter hd)

theorem Gone.aged (aged : List OpenflowContext) (h : Gone s x) : Gone (aged.foldl (ageContext now) s) x := by
  induction aged generalizing s with
  | nil => exact h
  | cons d aged ih =>
    refine ih ?_
    rw [ageContext]
    split
    · exact h.delete
    · exact h

theorem gone_aged (aged : List OpenflowContext) (hc : c ∈ aged) (hold : c.createdAt + contextLifetime ≤ now) :
    Gone (aged.foldl (ageContext now) s) c.transactionId := by
  induction aged generalizing s with
  | nil => exact absurd hc (by simp)
  | cons d aged ih =>
    rcases List.mem_cons.mp hc with rfl | hc
    · refine Gone.aged aged ?_
      rw [ageContext,if_pos hold]
      exact gone_delete
    · exact ih hc

theorem Gone.step (h : Gone s x) (hother : ∀ r, e.request = some r → r.transactionId ≠ x)
    (hok : s.step heap fuel handlers e = .ok s') : Gone s' x := by
  rcases step_contexts hok with ⟨r,hr,hcontexts⟩ | ⟨now,_,hcontexts⟩ | ⟨_,_,hcontexts⟩
  · exact (h.save (hother r hr) _).of_contexts hcontexts
  · exact (h.aged s.contexts).of_contexts hcontexts
  · exact h.of_contexts hcontexts

theorem Gone.run (h : Gone s x) (hother : ∀ d ∈ events, ∀ r, d.request = some r → r.transactionId ≠ x)
    (hok : s.run heap fuel handlers events = .ok s') : Gone s' x := by
  refine run_keeps (I := (Gone · x)) ?_ h hok
  intro e he s s' h hstep
  exact h.step (hother e he) hstep

theorem Keeps.mem (h : Keeps s c) : c ∈ s.contexts :=
  List.mem_of_mem_filter (p := (·.transactionId = c.transactionId)) (by rw [h]; exact List.mem_singleton_self c)

-- The first aging round past the lifetime takes the context away, and no later event brings one of its id.
theorem Keeps.run_gone (h : Keeps s c)
    (hother : ∀ d ∈ events, ∀ r, d.request = some r → r.transactionId ≠ c.transactionId)
    (hold : ¬ ∀ e ∈ events, e.AgesBefore (c.createdAt + contextLifetime))
    (hok : s.run heap fuel handlers events = .ok s') : Gone s' c.transactionId := by
  induction events generalizing s with
  | nil => exact absurd (by simp) hold
  | cons e events ih =>
    rw [SwitchInterface.run,bind_eq_ok] at hok
    obtain ⟨mid,hstep,hrest⟩ := hok
    have hlater : ∀ d ∈ events, ∀ r, d.request = some r → r.transactionId ≠ c.transactionId :=
      fun d hd => hother d (List.mem_cons_of_mem _ hd)
    by_cases hage : e.AgesBefore (c.createdAt + contextLifetime)
    · refine ih (h.step hage hstep) hlater (fun hages => hold ?_) hrest
      exact List.forall_mem_cons.mpr ⟨hage,hages⟩
    · rw [InterfaceEvent.AgesBefore] at hage
      push Not at hage
      obtain ⟨now,rfl,hnow⟩ := hage
      rw [← Except.ok.inj hstep] at hrest
      exact (gone_aged s.contexts h.mem hnow).run hlater hrest

-- No two contexts have one id.
def Single (s : SwitchInterface) : Prop := ∀ c ∈ s.contexts, Keeps s c

theorem Single.save (h : Single s) (o : Origin) : Single (s.saveContext x message o now) := by
  by_cases hnone : s.lookupContext x = none
  · intro c hc
    rw [saveContext,if_neg (not_not.mpr hnone)] at hc
    rcases List.mem_cons.mp hc with rfl | hc
    · exact keeps_save hnone o
    · exact (h c hc).save o
  · rw [saveContext,if_pos hnone]
    exact h

theorem Single.delete (h : Single s) : Single (s.deleteContext x) := by
  intro c hc
  obtain ⟨hc,hx⟩ := List.mem_filter.mp hc
  exact (h c hc).delete (by simpa using Ne.symm (of_decide_eq_true hx))

theorem Single.age (h : Single s) : Single (s.ageContexts now) := by
  have haged : ∀ (aged : List OpenflowContext) (s : SwitchInterface), Single s →
      Single (aged.foldl (ageContext now) s) := by
    intro aged
    induction aged with
    | nil => exact fun _ h => h
    | cons d aged ih =>
      intro s h
      refine ih _ ?_
      rw [ageContext]
      split
      · exact h.delete
      · exact h
  exact haged s.contexts s h

theorem Single.of_contexts (h : Single s) (hs : s'.contexts = s.contexts) : Single s' := by
  intro c hc
  exact (h c (hs ▸ hc)).of_contexts hs

theorem Single.step (h : Single s) (hok : s.step heap fuel handlers e = .ok s') : Single s' := by
  rcases step_contexts hok with ⟨r,_,hcontexts⟩ | ⟨now,_,hcontexts⟩ | ⟨_,_,hcontexts⟩
  · exact (h.save _).of_contexts hcontexts
  · exact h.age.of_contexts hcontexts
  · exact h.of_contexts hcontexts

theorem Single.run (h : Single s) (hok : s.run heap fuel handlers events = .ok s') : Single s' := by
  refine run_keeps (I := Single) ?_ h hok
  intro e _ s s' h hstep
  exact h.step hstep

end SwitchInterface

section Routing

variable (heap : Nat → UInt8)

def serviceImage (name : CString) (message : Bytes) : Bytes :=
  xmalloc heap 8 ++ toNet16 (UInt16.ofNat (name.bytes.length + 1)) ++ (name.bytes ++ [0]) ++ message

def Origin.sending (message : Bytes) : Origin → SentMessage
  | .secureChannel => .toSecureChannel message
  | .service name => .toService name messengerOpenflowMessage (serviceImage heap name message)

variable {heap}

theorem xmalloc_add (m n : Nat) : ∃ rest : Bytes, rest.length = n ∧ xmalloc heap (m + n) = xmalloc heap m ++ rest := by
  refine ⟨(List.range n).map fun i => heap (m + i),by simp,?_⟩
  rw [xmalloc,xmalloc,List.range_add,List.map_append,List.map_map]
  rfl

theorem serviceEnvelope_image (name : CString) (message : Bytes) :
    serviceEnvelope heap name message = .ok (serviceImage heap name message) := by
  obtain ⟨rest,hrest,hmemory⟩ := @xmalloc_add heap 10 (name.bytes.length + 1)
  obtain ⟨two,htwo,hten⟩ := @xmalloc_add heap 8 2
  have height : (xmalloc heap 8).length = 8 := by simp [xmalloc]
  have hfirst : (store (xmalloc heap 8 ++ two ++ (rest ++ message)) 8 (toNet16 (UInt16.ofNat (name.bytes.length + 1))) :
      Exec Bytes) = .ok (xmalloc heap 8 ++ toNet16 (UInt16.ofNat (name.bytes.length + 1)) ++ (rest ++ message)) := by
    have hstore := @store_append ValidationError (xmalloc heap 8) two (rest ++ message)
      (toNet16 (UInt16.ofNat (name.bytes.length + 1))) (by simp [htwo])
    rwa [height] at hstore
  have hsecond : (store (xmalloc heap 8 ++ toNet16 (UInt16.ofNat (name.bytes.length + 1)) ++ rest ++ message) 10
      (name.bytes ++ [0]) : Exec Bytes) = .ok (serviceImage heap name message) := by
    have hstore := @store_append ValidationError (xmalloc heap 8 ++ toNet16 (UInt16.ofNat (name.bytes.length + 1))) rest
      message (name.bytes ++ [0]) (by simp [hrest])
    rwa [List.length_append,height,length_toNet16] at hstore
  rw [serviceEnvelope]
  rw [hmemory,hten,List.append_assoc _ rest,hfirst,ok_bind,← List.append_assoc _ rest,hsecond]

variable {fuel : Nat} {handlers : Handlers} {s s₁ s₂ : SwitchInterface} {e : InterfaceEvent}
  {events : List InterfaceEvent} {r : Request} {message : Bytes} {o : Origin} {ok : Bool}

theorem sendTo_origin (hpos : message.length ≠ 0) (hup : o = .secureChannel → s.connected = true) :
    ∃ result, s.sendTo heap ok message o = .ok (result,{ s with sent := s.sent ++ [o.sending heap message] }) := by
  cases o with
  | secureChannel =>
    refine ⟨true,?_⟩
    rw [SwitchInterface.sendTo,SwitchInterface.sendMessageToSecureChannel,abortIf,if_neg hpos,ok_bind,abortIf,
      if_neg (by simp [hup rfl]),ok_bind]
    rfl
  | service name =>
    refine ⟨ok,?_⟩
    rw [SwitchInterface.sendTo,SwitchInterface.sendOpenflowMessageToLocal,serviceEnvelope_image,ok_bind]
    rfl

-- Where an answer with this id goes, and what an error for it quotes.
def SwitchInterface.answerer (s : SwitchInterface) (x : UInt32) : Origin :=
  ((s.lookupContext x).map OpenflowContext.origin).getD .secureChannel

def SwitchInterface.quoted (s : SwitchInterface) (x : UInt32) : Bytes :=
  ((s.getOpenflowMessage x).map (·.take 64)).getD []

theorem send_answerer (heap : Nat → UInt8) (ok : Bool) (hlen : 8 ≤ message.length) :
    s.switchSendOpenflowMessage heap ok message = s.sendTo heap ok message (s.answerer (be32 message 4)) := by
  rw [SwitchInterface.switchSendOpenflowMessage,abortIf,if_neg (Nat.not_lt_of_le hlen),ok_bind,
    net32_inside (by omega),ok_bind,SwitchInterface.answerer]
  cases s.lookupContext (be32 message 4) with
  | none => rfl
  | some c => rfl

def errorMessage (x : UInt32) (type code : UInt16) (quote : Bytes) : Bytes :=
  framed x .error (toNet16 type ++ toNet16 code ++ quote)

theorem errorMessage_inj {x : UInt32} {type code : UInt16} {quote quote' : Bytes}
    (h : errorMessage x type code quote = errorMessage x type code quote') : quote = quote' := by
  have hbody := congrArg (List.drop (8 + 4)) h
  have hhead : (toNet16 type ++ toNet16 code).length = 4 := rfl
  rwa [errorMessage,errorMessage,drop_framed,drop_framed,List.drop_left' hhead,List.drop_left' hhead] at hbody

theorem quoted_length (x : UInt32) : (s.quoted x).length ≤ 64 := by
  rw [SwitchInterface.quoted]
  cases s.getOpenflowMessage x with
  | none => exact Nat.zero_le _
  | some m => exact List.length_take_le _ _

theorem sendError_answerer {x : UInt32} {type code : UInt16} (hcode : code ∈ quotingCodes type) :
    s.sendErrorMessage heap ok x type code = s.sendTo heap ok (errorMessage x type code (s.quoted x)) (s.answerer x) := by
  have htype : type ≠ 0 := by
    rintro rfl
    exact absurd hcode (by simp [quotingCodes])
  have hlen : 8 ≤ (errorMessage x type code (s.quoted x)).length := by
    rw [errorMessage,length_framed]
    omega
  have herror : createError x type code ((s.getOpenflowMessage x).map (·.take 64)) =
      .ok (errorMessage x type code (s.quoted x)) := by
    have hquote := @quoted_length s x
    exact createError_eq (by rw [← SwitchInterface.quoted]; omega)
  have hid : be32 (errorMessage x type code (s.quoted x)) 4 = x := be32_xid
  rw [SwitchInterface.sendErrorMessage,SwitchInterface.errorData,if_neg htype,if_pos hcode]
  simp only [herror,ok_bind]
  rw [send_answerer heap ok hlen,hid]

theorem sending_inj {o' : Origin} {message' : Bytes} (h : o.sending heap message = o'.sending heap message') :
    o = o' ∧ message = message' := by
  cases o with
  | secureChannel =>
    cases o' with
    | secureChannel => exact ⟨rfl,SentMessage.toSecureChannel.inj h⟩
    | service name' => exact absurd h (by simp [Origin.sending])
  | service name =>
    cases o' with
    | secureChannel => exact absurd h (by simp [Origin.sending])
    | service name' =>
      obtain ⟨rfl,_,himage⟩ := SentMessage.toService.inj h
      exact ⟨rfl,List.append_cancel_left himage⟩

theorem sendTo_sent {result : Bool × SwitchInterface} (h : s.sendTo heap ok message o = .ok result) :
    result.2.sent = s.sent ++ [o.sending heap message] := by
  cases o with
  | secureChannel =>
    rw [SwitchInterface.sendTo,SwitchInterface.sendMessageToSecureChannel,bind_eq_ok] at h
    obtain ⟨_,_,h⟩ := h
    rw [bind_eq_ok] at h
    obtain ⟨_,_,h⟩ := h
    rw [← Except.ok.inj h]
    rfl
  | service name =>
    rw [SwitchInterface.sendTo,SwitchInterface.sendOpenflowMessageToLocal,serviceEnvelope_image,ok_bind] at h
    rw [← Except.ok.inj h]
    rfl

-- A message with the request's id goes to its origin, and an error for it quotes the request.
structure Answered (heap : Nat → UInt8) (s : SwitchInterface) (r : Request) : Prop where
  routed : ∀ ok message, 8 ≤ message.length → be32 message 4 = r.transactionId → ∃ result,
    s.switchSendOpenflowMessage heap ok message =
      .ok (result,{ s with sent := s.sent ++ [r.origin.sending heap message] })
  quoted : ∀ ok type code, code ∈ quotingCodes type → ∃ result,
    s.sendErrorMessage heap ok r.transactionId type code = .ok (result,{ s with
      sent := s.sent ++ [r.origin.sending heap (errorMessage r.transactionId type code (r.message.take 64))] })

theorem answered_iff (hup : r.origin = .secureChannel → s.connected = true) :
    Answered heap s r ↔ s.answerer r.transactionId = r.origin ∧ s.quoted r.transactionId = r.message.take 64 := by
  constructor
  · intro h
    obtain ⟨result,hsent⟩ := h.quoted true 1 0 (by decide)
    rw [sendError_answerer (by decide)] at hsent
    have hlast := List.append_cancel_left (sendTo_sent hsent)
    obtain ⟨horigin,hmessage⟩ := sending_inj (List.singleton_inj.mp hlast)
    exact ⟨horigin.symm,(errorMessage_inj hmessage).symm⟩
  · rintro ⟨horigin,hquote⟩
    refine ⟨?_,?_⟩
    · intro ok message hlen hid
      rw [send_answerer heap ok hlen,hid,horigin]
      exact sendTo_origin (by omega) hup
    · intro ok type code hcode
      rw [sendError_answerer hcode,horigin,hquote]
      exact sendTo_origin (by rw [errorMessage,length_framed]; omega) hup

-- The context that the table has for the request once it has arrived: an earlier one of its id stays.
def SwitchInterface.contextFor (s : SwitchInterface) (r : Request) (now : Int) : OpenflowContext :=
  (s.lookupContext r.transactionId).getD ⟨r.transactionId,r.message,r.origin,now⟩

-- The context is of the request's origin and of its first bytes, and no aging round takes it away.
structure Keeping (c : OpenflowContext) (r : Request) (events : List InterfaceEvent) : Prop where
  origin : c.origin = r.origin
  quote : c.message.take 64 = r.message.take 64
  lives : ∀ d ∈ events, d.AgesBefore (c.createdAt + contextLifetime)

theorem contextFor_id {now : Int} : (s.contextFor r now).transactionId = r.transactionId := by
  rw [SwitchInterface.contextFor]
  cases hfind : s.lookupContext r.transactionId with
  | none => rfl
  | some c =>
    have hid := List.find?_some hfind
    simpa using hid

theorem contextFor_kept (hsingle : SwitchInterface.Single s) (hr : e.request = some r)
    (hstep : s.step heap fuel handlers e = .ok s₁) : SwitchInterface.Keeps s₁ (s.contextFor r e.time) := by
  refine SwitchInterface.Keeps.of_contexts ?_ (SwitchInterface.arrival_contexts hr hstep)
  rw [SwitchInterface.contextFor]
  cases hfind : s.lookupContext r.transactionId with
  | none => exact SwitchInterface.keeps_save hfind r.origin
  | some c => exact (hsingle c (List.mem_of_find?_eq_some hfind)).save r.origin

theorem Keeps.answers {c : OpenflowContext} (h : SwitchInterface.Keeps s c) :
    s.answerer c.transactionId = c.origin ∧ s.quoted c.transactionId = c.message.take 64 := by
  rw [SwitchInterface.answerer,SwitchInterface.quoted,SwitchInterface.getOpenflowMessage,h.lookup]
  exact ⟨rfl,rfl⟩

-- Whatever requests arrive meanwhile, the kept context answers; with no other request of its id it has to.
theorem context_routes_iff {up : Bool} {before : List InterfaceEvent}
    (hbefore : SwitchInterface.run heap fuel handlers { connected := up } before = .ok s) (hr : e.request = some r)
    (hstep : s.step heap fuel handlers e = .ok s₁) (hrun : s₁.run heap fuel handlers events = .ok s₂)
    (hup : r.origin = .secureChannel → s₂.connected = true) :
    (Keeping (s.contextFor r e.time) r events → Answered heap s₂ r) ∧
    ((∀ d ∈ events, ∀ r', d.request = some r' → r'.transactionId ≠ r.transactionId) →
      (Answered heap s₂ r ↔ Keeping (s.contextFor r e.time) r events)) := by
  have hsingle : SwitchInterface.Single s := SwitchInterface.Single.run (by simp [SwitchInterface.Single]) hbefore
  have hkept := contextFor_kept hsingle hr hstep
  have hid := @contextFor_id s r e.time
  have hlives : (∀ d ∈ events, d.AgesBefore ((s.contextFor r e.time).createdAt + contextLifetime)) →
      s₂.answerer r.transactionId = (s.contextFor r e.time).origin ∧
        s₂.quoted r.transactionId = (s.contextFor r e.time).message.take 64 := by
    intro hages
    rw [← hid]
    exact Keeps.answers (hkept.run hages hrun)
  have hanswers : Keeping (s.contextFor r e.time) r events → Answered heap s₂ r := by
    intro hkeeping
    obtain ⟨horigin,hquote⟩ := hlives hkeeping.lives
    exact (answered_iff hup).mpr ⟨horigin.trans hkeeping.origin,hquote.trans hkeeping.quote⟩
  refine ⟨hanswers,fun hother => ⟨?_,hanswers⟩⟩
  intro hanswered
  obtain ⟨horigin,hquote⟩ := (answered_iff hup).mp hanswered
  by_cases hages : ∀ d ∈ events, d.AgesBefore ((s.contextFor r e.time).createdAt + contextLifetime)
  · obtain ⟨horigin',hquote'⟩ := hlives hages
    exact ⟨horigin'.symm.trans horigin,hquote'.symm.trans hquote,hages⟩
  · -- Nothing is quoted once the context is gone, and the request has at least a header to quote.
    have hgone := hkept.run_gone (by rw [hid]; exact hother) hages hrun
    rw [hid] at hgone
    rw [SwitchInterface.quoted,SwitchInterface.getOpenflowMessage,hgone.lookup] at hquote
    have hlen := congrArg List.length hquote
    have hheader := SwitchInterface.arrival_length hr hstep
    rw [List.length_take] at hlen
    simp only [Option.map_none,Option.getD_none,List.length_nil] at hlen
    omega

end Routing

section Collision

def helloFive : Bytes := [1,0,0,8,0,0,0,5]

def fromService : Bytes := [0,0,0,0,0,0,0,1,0,2,97,0] ++ helloFive

def helloSix : Bytes := [1,0,0,8,0,0,0,6]

-- Two origins with ids of their own, and an aging round within the lifetime.
theorem context_routes_two : ∃ s s₁ s₂,
    SwitchInterface.run (fun _ => 0) 9 (fun _ => false) { connected := true }
      [.service messengerOpenflowMessage fromService 0] = .ok s ∧
    s.step (fun _ => 0) 9 (fun _ => false) (.remote helloSix 1) = .ok s₁ ∧
    s₁.run (fun _ => 0) 9 (fun _ => false) [.service messengerOpenflowMessage fromService 2,.age 4] = .ok s₂ ∧
    Answered (fun _ => 0) s₂ ⟨6,.secureChannel,helloSix⟩ := by
  refine ⟨_,_,_,rfl,rfl,rfl,?_⟩
  refine (@context_routes_iff (fun _ => 0) 9 (fun _ => false) _ _ _ (.remote helloSix 1)
    [.service messengerOpenflowMessage fromService 2,.age 4] ⟨6,.secureChannel,helloSix⟩ true
    [.service messengerOpenflowMessage fromService 0] rfl rfl rfl rfl (fun _ => rfl)).1 ⟨rfl,rfl,?_⟩
  intro d hd now hnow
  rcases List.mem_pair.mp hd with rfl | rfl
  · exact absurd hnow (by simp)
  · rw [← InterfaceEvent.age.inj hnow]
    decide

-- The service's context is there when the controller's request with its id arrives.
theorem collision_run : ∃ s s₁, SwitchInterface.run (fun _ => 0) 9 (fun _ => false) { connected := true }
      [.service messengerOpenflowMessage fromService 0] = .ok s ∧
    s.step (fun _ => 0) 9 (fun _ => false) (.remote helloFive 1) = .ok s₁ ∧
    s₁.switchSendOpenflowMessage (fun _ => 0) true helloFive = .ok (true,{ s₁ with
      sent := [(Origin.service (strndup fromService 10 2)).sending (fun _ => 0) helloFive] }) ∧ s₁.sent = [] :=
  ⟨_,_,rfl,rfl,rfl,rfl⟩

theorem context_misroutes : ¬ ∀ (heap : Nat → UInt8) (fuel : Nat) (handlers : Handlers) (before : List InterfaceEvent)
    (e : InterfaceEvent) (r : Request) (events : List InterfaceEvent) (s s₁ s₂ : SwitchInterface),
    SwitchInterface.run heap fuel handlers { connected := true } before = .ok s → e.request = some r →
      s.step heap fuel handlers e = .ok s₁ →
      (∀ d ∈ events, ∀ r', d.request = some r' → r'.transactionId ≠ r.transactionId) →
      s₁.run heap fuel handlers events = .ok s₂ →
      ∀ ok message, 8 ≤ message.length → be32 message 4 = r.transactionId → ∃ result,
        s₂.switchSendOpenflowMessage heap ok message =
          .ok (result,{ s₂ with sent := s₂.sent ++ [r.origin.sending heap message] }) := by
  intro hclaim
  obtain ⟨s,s₁,hbefore,hstep,hsend,hnone⟩ := collision_run
  obtain ⟨result,hsent⟩ := hclaim (fun _ => 0) 9 (fun _ => false) _ (.remote helloFive 1) ⟨5,.secureChannel,helloFive⟩ []
    s s₁ s₁ hbefore rfl hstep (by simp) rfl true helloFive (by decide) rfl
  rw [hsend,hnone] at hsent
  have hlist := congrArg (fun p : Bool × SwitchInterface => p.2.sent) (Except.ok.inj hsent)
  simp [Origin.sending] at hlist

end Collision

end Trema.OpenFlow
