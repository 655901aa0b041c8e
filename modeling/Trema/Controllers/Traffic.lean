import Trema.Library.Histories
import Trema.Controllers.Forwarding
import Trema.OpenFlow.ApplicationDelivery
import Trema.Table.Tracking

namespace Trema.Controllers

open Library OpenFlow Packet
open OpenFlow.Application (Announced CutShort announce announced handleMessage createOpenflowApplicationMessage
  messengerOpenflowReady messengerOpenflowDisconnected)

structure Key where
  mac : Mac
  datapathId : UInt64
deriving DecidableEq

structure ForwardingEntry where
  portNo : UInt16
  lastUpdate : Int
deriving DecidableEq

-- What happens to a controller, with what now returns; a walk over the entries reads the clock at each of them.
inductive Event where
  | received (announced : Announced) (now : Int)
  | switchReady (datapathId : UInt64)
  | switchDisconnected (datapathId : UInt64)
  | aging (clock : Key → Int)

def maxAge : Int := 300

def agedOut (now : Int) (entry : ForwardingEntry) : Bool := decide (entry.lastUpdate + maxAge < now)

section Learning

open Table

variable {κ : Type} (compare : κ → κ → Bool) (hash : κ → UInt32)

-- The learn of both controllers; the entry is written through the pointer that the table holds.
def learnEntry (forwardingDb : HashTable κ ForwardingEntry) (key : κ) (portNo : UInt16) (now : Int) :
    HashTable κ ForwardingEntry :=
  match lookupHashEntry compare hash forwardingDb key with
  | none => (insertHashEntry compare hash forwardingDb key ⟨portNo,now⟩).2
  | some _ => modifyHashEntry compare hash forwardingDb key fun _ => ⟨portNo,now⟩

variable {compare hash}

theorem Tracks.learnEntry [DecidableEq κ] (hcompare : ∀ x y, compare x y = true ↔ x = y)
    {forwardingDb : HashTable κ ForwardingEntry} {m : κ → Option ForwardingEntry} (h : Tracks compare hash forwardingDb m)
    (key : κ) (portNo : UInt16) (now : Int) :
    Tracks compare hash (learnEntry compare hash forwardingDb key portNo now) (Function.update m key (some ⟨portNo,now⟩)) := by
  rw [Controllers.learnEntry,h.found]
  cases hm : m key with
  | none => exact h.insert hcompare key _
  | some entry =>
    have hmodified := h.modify hcompare key fun _ => ⟨portNo,now⟩
    rwa [hm] at hmodified

end Learning

structure Controller (σ : Type) where
  switchEvents : Bool
  handlePacketIn : Int → UInt64 → PacketIn → σ → Exec (σ × List Sent)
  handleSwitchReady : UInt64 → σ → σ
  handleSwitchDisconnected : UInt64 → σ → σ
  age : (Key → Int) → σ → σ

def frameOf (fuel : Nat) : Option Bytes → Exec (Option Frame)
  | none => pure none
  | some data => do
    let packetInfo ← parsePacket data fuel
    pure (some ⟨data,packetInfo⟩)

-- The packet_in that the handler is called with, unless the packet parser stops at its frame.
def arrival (a : Announced) : Option PacketIn :=
  match a.message with
  | .packetIn bufferId totalLen inPort reason data =>
    match frameOf ((data.getD []).length + 1) (handedData data) with
    | .ok frame => some ⟨a.datapathId,a.xid,bufferId,totalLen,inPort,reason,frame⟩
    | .error _ => none
  | _ => none

def Cut (a : Announced) : Prop :=
  ∃ bufferId totalLen inPort reason data, a.message = .packetIn bufferId totalLen inPort reason data ∧ CutShort data

theorem frameOf_parsed {data : Option Bytes} (h : ¬ CutShort data) :
    ∃ frame, frameOf ((data.getD []).length + 1) (handedData data) = .ok frame := by
  by_cases hnull : data.getD [] = []
  · rw [handedData,if_pos hnull]
    exact ⟨none,rfl⟩
  · rw [handedData,if_neg hnull]
    cases data with
    | none => exact absurd rfl hnull
    | some frame =>
      rcases @parsePacket_spec frame (frame.length + 1) (by omega) with ⟨hends,_⟩ | ⟨_,p,hparse,_⟩
      · exact absurd ⟨frame,rfl,hends⟩ h
      · refine ⟨some ⟨frame,p⟩,?_⟩
        simp only [frameOf,Option.getD_some,hparse]
        rfl

namespace Controller

variable {σ : Type} (c : Controller σ)

def handlers : Application.Handlers := ⟨fun type => decide (type = .packetIn),c.switchEvents,c.switchEvents⟩

def call (now : Int) (fuel : Nat) (s : σ) : Application.Event → Exec (σ × List Sent)
  | .openflow datapathId (.packetIn transactionId bufferId totalLen inPort reason data) => do
    let frame ← frameOf fuel data
    c.handlePacketIn now datapathId ⟨datapathId,transactionId,bufferId,totalLen,inPort,reason,frame⟩ s
  | .switchReady datapathId => pure (c.handleSwitchReady datapathId s,[])
  | .switchDisconnected datapathId => pure (c.handleSwitchDisconnected datapathId s,[])
  | _ => pure (s,[])

def callAll (now : Int) (fuel : Nat) (s : σ) (events : List Application.Event) : Exec (σ × List Sent) := do
  let (s,sent) ← respond (c.call now) fuel s events
  pure (s,sent.flatten)

def step (heap : Nat → UInt8) (fuel : Nat) (s : σ) : Event → Exec (σ × List Sent)
  | .received a now => do
    let received ← announce c.handlers heap fuel a
    c.callAll now fuel s received.events
  | .switchReady datapathId => do
    let received ← handleMessage c.handlers fuel heap messengerOpenflowReady
      (createOpenflowApplicationMessage (some datapathId) none)
    c.callAll 0 fuel s received.events
  | .switchDisconnected datapathId => do
    let received ← handleMessage c.handlers fuel heap messengerOpenflowDisconnected
      (createOpenflowApplicationMessage (some datapathId) none)
    c.callAll 0 fuel s received.events
  | .aging clock => pure (c.age clock s,[])

section Settled

theorem settled_frameOf (data : Option Bytes) : Settled fun n => frameOf n data := by
  cases data with
  | none => exact settled_const _
  | some data => exact settled_bind (settled_parsePacket data) fun _ => settled_const _

theorem settled_call (now : Int) (s : σ) (event : Application.Event) : Settled fun n => c.call now n s event := by
  cases event with
  | openflow datapathId event =>
    cases event with
    | packetIn transactionId bufferId totalLen inPort reason data =>
      exact settled_bind (settled_frameOf data) fun _ => settled_const _
    | _ => exact settled_const _
  | _ => exact settled_const _

theorem settled_callAll (now : Int) (s : σ) (events : List Application.Event) :
    Settled fun n => c.callAll now n s events :=
  settled_bind (settled_respond (c.settled_call now) s events) fun _ => settled_const _

theorem settled_step (heap : Nat → UInt8) (s : σ) (e : Event) : Settled fun n => c.step heap n s e := by
  cases e with
  | received a now =>
    exact settled_bind (Application.settled_announce a) fun received => c.settled_callAll now s received.events
  | aging clock => exact settled_const _
  | _ => exact settled_bind (Application.settled_handleMessage _ _) fun received => c.settled_callAll 0 s received.events

end Settled

section Calls

variable {c} {s : σ} {now : Int}

theorem callAll_nil : Yields (fun n => c.callAll now n s []) (.ok (s,[])) := yields_ok rfl

theorem callAll_single {event : Application.Event} {r : Exec (σ × List Sent)}
    (h : Yields (fun n => c.call now n s event) r) : Yields (fun n => c.callAll now n s [event]) r := by
  obtain ⟨hr,n,hn⟩ := h
  refine ⟨hr,n,?_⟩
  simp only [callAll,respond,hn]
  cases r with
  | ok p => simp [pure_eq_ok]
  | error e => rfl

theorem callAll_pair {event event' : Application.Event} {s' : σ} {sent : List Sent}
    (h : Yields (fun n => c.call now n s event) (.ok (s',sent)))
    (h' : ∀ n, c.call now n s' event' = .ok (s',[])) :
    Yields (fun n => c.callAll now n s [event,event']) (.ok (s',sent)) := by
  obtain ⟨hr,n,hn⟩ := h
  refine ⟨hr,n,?_⟩
  simp only [callAll,respond,hn,h',ok_bind,pure_eq_ok]
  simp

end Calls

section Steps

variable {c} {heap : Nat → UInt8} {s : σ} {a : Announced} {now : Int}

theorem stops_iff : Application.Stops c.handlers a.message ↔ Cut a := by
  constructor
  · intro hstops
    cases hm : a.message with
    | packetIn bufferId totalLen inPort reason data =>
      rw [hm] at hstops
      exact ⟨_,_,_,_,_,hm,hstops.2⟩
    | _ => rw [hm] at hstops; exact hstops.elim
  · rintro ⟨bufferId,totalLen,inPort,reason,data,hm,hcut⟩
    rw [hm]
    exact ⟨rfl,hcut⟩

theorem events_packetIn {bufferId : UInt32} {totalLen inPort : UInt16} {reason : UInt8} {data : Option Bytes}
    (hm : a.message = .packetIn bufferId totalLen inPort reason data) : (announced c.handlers a).events =
      [.openflow a.datapathId (.packetIn a.xid bufferId totalLen inPort reason (handedData data))] := by
  simp only [announced,Application.calls,hm]
  rfl

theorem events_other (hm : a.message.type ≠ .packetIn) : (announced c.handlers a).events = [] := by
  have hhandler : c.handlers.openflow a.message.type = false := decide_eq_false hm
  simp only [announced,Application.calls,hhandler]
  rfl

theorem arrival_iff (hcut : ¬ Cut a) : (∃ packetIn, arrival a = some packetIn) ↔ a.message.type = .packetIn := by
  cases hm : a.message with
  | packetIn bufferId totalLen inPort reason data =>
    obtain ⟨frame,hframe⟩ := frameOf_parsed fun h => hcut ⟨_,_,_,_,_,hm,h⟩
    refine iff_of_true ⟨⟨a.datapathId,a.xid,bufferId,totalLen,inPort,reason,frame⟩,?_⟩ rfl
    simp only [arrival,hm,hframe]
  | _ => simp [arrival,hm,Construction.type]

theorem step_cut (h : a.Sendable) (hcut : Cut a) :
    Yields (fun n => c.step heap n s (.received a now)) (.error .aborted) :=
  (yields_bind (Application.settled_announce a) (fun received => c.settled_callAll now s received.events) _).mpr
    (.inr ⟨_,(Application.announce_told h).2 (stops_iff.mpr hcut),rfl⟩)

theorem step_told (h : a.Sendable) (hcut : ¬ Cut a) {r : Exec (σ × List Sent)}
    (hr : Yields (fun n => c.callAll now n s (announced c.handlers a).events) r) :
    Yields (fun n => c.step heap n s (.received a now)) r :=
  (yields_bind (Application.settled_announce a) (fun received => c.settled_callAll now s received.events) _).mpr
    (.inl ⟨_,(Application.announce_told h).1 (stops_iff.not.mpr hcut),hr⟩)

theorem step_other (h : a.Sendable) (hcut : ¬ Cut a) (hnone : arrival a = none) :
    Yields (fun n => c.step heap n s (.received a now)) (.ok (s,[])) := by
  refine step_told h hcut ?_
  rw [events_other]
  · exact callAll_nil
  · intro htype
    obtain ⟨packetIn,hp⟩ := (arrival_iff hcut).mpr htype
    rw [hnone] at hp
    exact absurd hp (by simp)

theorem step_packetIn (h : a.Sendable) (hcut : ¬ Cut a) {packetIn : PacketIn} (hp : arrival a = some packetIn) {r : Exec (σ × List Sent)}
    (hr : c.handlePacketIn now a.datapathId packetIn s = r) (hne : r ≠ .error .outOfFuel) :
    Yields (fun n => c.step heap n s (.received a now)) r := by
  unfold arrival at hp
  split at hp
  · rename_i bufferId totalLen inPort reason data hm
    split at hp
    · rename_i frame hframe
      injection hp with hp
      refine step_told h hcut ?_
      rw [events_packetIn hm]
      refine callAll_single ⟨hne,(data.getD []).length + 1,?_⟩
      simp only [call,hframe,ok_bind,hp]
      exact hr
    · exact absurd hp (by simp)
  · exact absurd hp (by simp)

theorem handleMessage_state (fuel : Nat) (handlers : Application.Handlers) {type : UInt16} (datapathId : UInt64)
    (ht : type = messengerOpenflowReady ∨ type = messengerOpenflowDisconnected) :
    handleMessage handlers fuel heap type (createOpenflowApplicationMessage (some datapathId) none) =
      .ok ⟨Application.switchEvents handlers type datapathId,some (Application.updateSwitchEventStats type false true)⟩ := by
  have hdata : createOpenflowApplicationMessage (some datapathId) none = toNet64 datapathId ++ toNet16 0 := List.append_nil _
  have hlen : (toNet64 datapathId ++ toNet16 0).length = 10 := by simp
  have hid : be64 (toNet64 datapathId ++ toNet16 0) 0 = datapathId := by
    rw [be64,slice_append_left (by simp),slice_whole (by simp),ofNat_beNat_toNet64]
  have hother : type ≠ messengerOpenflowMessage := by rcases ht with rfl | rfl <;> decide
  have hstate : type = Application.messengerOpenflowConnected ∨ type = Application.messengerOpenflowFaildToConnect ∨
      type = messengerOpenflowReady ∨ type = messengerOpenflowDisconnected := .inr (.inr ht)
  rw [handleMessage,hdata,abortIf,if_neg (by omega),ok_bind,if_neg hother,if_pos hstate,Application.handleSwitchEvents,
    abortIf,if_neg (by omega),ok_bind,net64_inside (by omega),ok_bind,hid]
  rfl

theorem step_switchReady (datapathId : UInt64) : Yields (fun n => c.step heap n s (.switchReady datapathId))
    (.ok (if c.switchEvents then c.handleSwitchReady datapathId s else s,[])) := by
  simp only [step,handleMessage_state _ _ _ (.inl rfl),ok_bind,Application.switchEvents,handlers]
  cases c.switchEvents with
  | true => exact callAll_single (yields_ok rfl)
  | false => exact callAll_nil

theorem step_switchDisconnected (datapathId : UInt64) : Yields (fun n => c.step heap n s (.switchDisconnected datapathId))
    (.ok (if c.switchEvents then c.handleSwitchDisconnected datapathId s else s,[])) := by
  simp only [step,handleMessage_state _ _ _ (.inr rfl),ok_bind,Application.switchEvents,handlers]
  cases c.switchEvents with
  | true => exact callAll_pair (yields_ok rfl) fun _ => rfl
  | false => exact callAll_single (yields_ok rfl)

end Steps

end Controller

-- What a controller learns from, whether it forgets a switch that comes or goes, and which switches it handles.
structure Habit where
  learns : PacketInfo → Bool
  forgets : Bool
  handles : List Event → UInt64 → Bool

def Event.Fit : Event → Prop
  | .received a _ => a.Sendable ∧ ∀ packetIn frame, arrival a = some packetIn → packetIn.data = some frame →
      packetIn.bufferId = uint32Max → frame.data.length ≤ 65511
  | _ => True

def Sent.isFlowMod (sent : Sent) : Bool := sent.message[1]? == some 14

def Identifiers.after (ids : Identifiers) (sent : List Sent) : Identifiers :=
  ⟨getTransactionId^[sent.length] ids.transactionId,getCookie^[sent.countP Sent.isFlowMod] ids.cookie⟩

namespace Habit

variable (habit : Habit)

def notice : Event → Option (Notice Key ForwardingEntry)
  | .received a now => do
    let packetIn ← arrival a
    let frame ← packetIn.data
    if habit.learns frame.packetInfo then
      some (.note ⟨frame.packetInfo.ethMacsa,a.datapathId⟩ ⟨packetIn.inPort,now⟩)
    else none
  | .switchReady datapathId | .switchDisconnected datapathId =>
    if habit.forgets then some (.purge fun key _ => decide (key.datapathId = datapathId)) else none
  | .aging clock => some (.purge fun key entry => agedOut (clock key) entry)

-- The entry was the last to be learned for the key, and nothing since has dropped it.
def Located (history : List Event) (key : Key) (entry : ForwardingEntry) : Prop :=
  ∃ front e back, history = front ++ e :: back ∧ habit.notice e = some (.note key entry) ∧
    ∀ later ∈ back, ∀ n, habit.notice later = some n → n.Spares key entry

def locate (history : List Event) : Key → Option ForwardingEntry := remembered (history.filterMap habit.notice)

theorem locate_eq_some {history : List Event} {key : Key} {entry : ForwardingEntry} :
    habit.locate history key = some entry ↔ habit.Located history key entry := remembered_filterMap_eq_some

theorem locate_snoc (history : List Event) (e : Event) : habit.locate (history ++ [e]) =
    match habit.notice e with
    | some n => n.update (habit.locate history)
    | none => habit.locate history := by
  rw [locate,List.filterMap_append]
  cases h : habit.notice e with
  | none => simp [locate,h]
  | some n => rw [List.filterMap_cons_some h,List.filterMap_nil,remembered_snoc]; rfl

def reply (ids : Identifiers) (history : List Event) (sent : List Sent) : Event → List Sent
  | .received a now =>
    match arrival a with
    | some packetIn =>
      match packetIn.data with
      | some frame =>
        if habit.handles history a.datapathId && habit.learns frame.packetInfo then
          answer packetIn frame (ids.after sent) ((habit.locate (history ++ [.received a now])
            ⟨frame.packetInfo.ethMacda,a.datapathId⟩).map ForwardingEntry.portNo)
        else []
      | none => []
    | none => []
  | _ => []

-- What is sent for an event, after `history` and the messages of `sent`.
inductive Replies (ids : Identifiers) (history : List Event) (sent : List Sent) : Event → List Sent → Prop where
  | forwarded {a : Announced} {now : Int} {packetIn : PacketIn} {frame : Frame} {entry : ForwardingEntry} :
      arrival a = some packetIn → packetIn.data = some frame → habit.handles history a.datapathId = true →
      habit.learns frame.packetInfo = true →
      habit.Located (history ++ [.received a now]) ⟨frame.packetInfo.ethMacda,a.datapathId⟩ entry →
      Replies ids history sent (.received a now) (answer packetIn frame (ids.after sent) (some entry.portNo))
  | flooded {a : Announced} {now : Int} {packetIn : PacketIn} {frame : Frame} :
      arrival a = some packetIn → packetIn.data = some frame → habit.handles history a.datapathId = true →
      habit.learns frame.packetInfo = true →
      (∀ entry, ¬ habit.Located (history ++ [.received a now]) ⟨frame.packetInfo.ethMacda,a.datapathId⟩ entry) →
      Replies ids history sent (.received a now) (answer packetIn frame (ids.after sent) none)
  | silent {e : Event} : (∀ a now packetIn frame, e = .received a now → arrival a = some packetIn →
      packetIn.data = some frame → habit.handles history a.datapathId = true →
      habit.learns frame.packetInfo = false) → Replies ids history sent e []

theorem reply_replies (ids : Identifiers) (history : List Event) (sent : List Sent) (e : Event) :
    habit.Replies ids history sent e (habit.reply ids history sent e) := by
  cases e with
  | received a now =>
    cases hp : arrival a with
    | none =>
      simp only [reply,hp]
      refine .silent fun _ _ _ _ he hp' => ?_
      injection he with ha
      rw [← ha,hp] at hp'
      exact absurd hp' (by simp)
    | some packetIn =>
      cases hdata : packetIn.data with
      | none =>
        simp only [reply,hp,hdata]
        refine .silent fun _ _ _ _ he hp' hdata' => ?_
        injection he with ha
        rw [← ha,hp] at hp'
        injection hp' with hp'
        rw [← hp',hdata] at hdata'
        exact absurd hdata' (by simp)
      | some frame =>
        simp only [reply,hp,hdata]
        by_cases hboth : habit.handles history a.datapathId && habit.learns frame.packetInfo
        · rw [if_pos hboth]
          rw [Bool.and_eq_true] at hboth
          cases hlocated : habit.locate (history ++ [.received a now]) ⟨frame.packetInfo.ethMacda,a.datapathId⟩ with
          | none =>
            refine .flooded hp hdata hboth.1 hboth.2 fun entry hentry => ?_
            rw [← habit.locate_eq_some,hlocated] at hentry
            exact absurd hentry (by simp)
          | some entry => exact .forwarded hp hdata hboth.1 hboth.2 (habit.locate_eq_some.mp hlocated)
        · rw [if_neg hboth]
          refine .silent fun _ _ _ _ he hp' hdata' hhandles => ?_
          injection he with ha
          rw [← ha,hp] at hp'
          injection hp' with hp'
          rw [← hp',hdata] at hdata'
          injection hdata' with hdata'
          rw [← ha] at hhandles
          rw [hhandles,Bool.true_and,hdata'] at hboth
          exact eq_false_of_ne_true hboth
  | _ => exact .silent fun _ _ _ _ he => absurd he (by simp)

-- A packet-in to an address that is located goes to its port.
theorem Replies.located {habit : Habit} {ids : Identifiers} {history : List Event} {sent out : List Sent} {a : Announced}
    {now : Int} {packetIn : PacketIn} {frame : Frame} {entry : ForwardingEntry}
    (h : habit.Replies ids history sent (.received a now) out) (hp : arrival a = some packetIn)
    (hdata : packetIn.data = some frame) (hhandles : habit.handles history a.datapathId = true)
    (hlearns : habit.learns frame.packetInfo = true)
    (hlocated : habit.locate (history ++ [.received a now]) ⟨frame.packetInfo.ethMacda,a.datapathId⟩ = some entry) :
    out = answer packetIn frame (ids.after sent) (some entry.portNo) := by
  cases h with
  | forwarded hp' hdata' _ _ hlocated' =>
    obtain rfl := Option.some.inj (hp.symm.trans hp')
    obtain rfl := Option.some.inj (hdata.symm.trans hdata')
    rw [← habit.locate_eq_some,hlocated] at hlocated'
    rw [Option.some.inj hlocated']
  | flooded hp' hdata' _ _ hnone =>
    obtain rfl := Option.some.inj (hp.symm.trans hp')
    obtain rfl := Option.some.inj (hdata.symm.trans hdata')
    exact absurd (habit.locate_eq_some.mp hlocated) (hnone entry)
  | silent hquiet =>
    rw [hquiet a now packetIn frame rfl hp hdata hhandles] at hlearns
    exact absurd hlearns (by simp)

-- A packet-in that the packet parser does not get through, or a handled one without a frame.
def Stops (history : List Event) : Event → Prop
  | .received a _ => Cut a ∨ habit.handles history a.datapathId = true ∧ ∃ packetIn, arrival a = some packetIn ∧
      packetIn.data = none
  | _ => False

end Habit

section Facts

variable {habit : Habit} {a : Announced} {packetIn : PacketIn} {frame : Frame} {now : Int}

theorem arrival_eq_some (h : arrival a = some packetIn) : ∃ data, a.message = .packetIn packetIn.bufferId packetIn.totalLen
    packetIn.inPort packetIn.reason data ∧ packetIn.datapathId = a.datapathId := by
  unfold arrival at h
  split at h
  · rename_i hm
    split at h
    · injection h with h
      subst h
      exact ⟨_,hm,rfl⟩
    · exact absurd h (by simp)
  · exact absurd h (by simp)

theorem arrival_inPort (hsend : a.Sendable) (h : arrival a = some packetIn) : validatePhyPortNo packetIn.inPort = .ok () := by
  obtain ⟨data,hm,_⟩ := arrival_eq_some h
  have hallowed := hsend.allowed
  rw [hm] at hallowed
  exact hallowed.1

theorem Event.Fit.answerable (h : (Event.received a now).Fit) (hp : arrival a = some packetIn)
    (hf : packetIn.data = some frame) : packetIn.Answerable frame :=
  ⟨hf,arrival_inPort h.1 hp,h.2 packetIn frame hp hf⟩

theorem notice_note {e : Event} {key : Key} {entry : ForwardingEntry} (h : habit.notice e = some (.note key entry)) :
    ∃ a now packetIn, e = .received a now ∧ arrival a = some packetIn ∧ entry = ⟨packetIn.inPort,now⟩ := by
  cases e with
  | received a now =>
    simp only [Habit.notice,Option.bind_eq_bind,Option.bind_eq_some_iff] at h
    obtain ⟨packetIn,hp,frame,_,h⟩ := h
    split at h
    · simp only [Option.some.injEq,Notice.note.injEq] at h
      exact ⟨a,now,packetIn,rfl,hp,h.2.symm⟩
    · exact absurd h (by simp)
  | switchReady datapathId =>
    simp only [Habit.notice] at h
    split at h <;> simp at h
  | switchDisconnected datapathId =>
    simp only [Habit.notice] at h
    split at h <;> simp at h
  | aging clock => simp [Habit.notice] at h

theorem located_port {history : List Event} (hfit : ∀ e ∈ history, e.Fit) {key : Key} {entry : ForwardingEntry}
    (h : habit.locate history key = some entry) : validatePhyPortNo entry.portNo = .ok () := by
  obtain ⟨front,e,back,rfl,hnote,_⟩ := habit.locate_eq_some.mp h
  obtain ⟨a,now,packetIn,rfl,hp,rfl⟩ := notice_note hnote
  have hfit : (Event.received a now).Fit := hfit _ (by simp)
  exact arrival_inPort hfit.1 hp

theorem isFlowMod_encode (datapathId : UInt64) (xid : UInt32) (c : Construction) :
    (Sent.mk datapathId (encode xid c)).isFlowMod = (c.type.code == 14) := by
  simp [Sent.isFlowMod,encode,framed,OpenFlow.header]

theorem isFlowMod_packetOut (datapathId : UInt64) (xid : UInt32) (port : UInt16) :
    (Sent.mk datapathId (encode xid (packetOutTo packetIn frame port))).isFlowMod = false := isFlowMod_encode _ _ _

theorem isFlowMod_flowMod (datapathId : UInt64) (xid : UInt32) (cookie : UInt64) (port : UInt16) :
    (Sent.mk datapathId (encode xid (flowModTo packetIn frame cookie port))).isFlowMod = true := isFlowMod_encode _ _ _

theorem after_append (ids : Identifiers) (sent more : List Sent) : ids.after (sent ++ more) = (ids.after sent).after more := by
  simp only [Identifiers.after,List.length_append,List.countP_append]
  rw [Nat.add_comm,Function.iterate_add_apply,Nat.add_comm (List.countP _ _),Function.iterate_add_apply]

theorem after_answer (ids : Identifiers) (located : Option UInt16) :
    ids.after (answer packetIn frame ids located) = taken packetIn ids located := by
  cases located with
  | none =>
    rw [answer,Identifiers.after,List.length_singleton,List.countP_singleton,isFlowMod_packetOut]
    rfl
  | some port =>
    rw [answer,Identifiers.after,taken,List.countP_cons_of_pos (isFlowMod_flowMod _ _ _ _),List.length_cons]
    split
    · rw [List.length_singleton,List.countP_singleton,isFlowMod_packetOut]
      rfl
    · rfl

end Facts

-- What each step of a controller of a habit does, `Inv` being what it has kept of the events so far.
structure Follows {σ : Type} (c : Controller σ) (habit : Habit) (identifiers : σ → Identifiers)
    (Inv : List Event → σ → Prop) : Prop where
  answered : ∀ {history s a now packetIn frame}, Inv history s → arrival a = some packetIn →
    packetIn.data = some frame → packetIn.Answerable frame → (∀ key entry,
      habit.locate (history ++ [.received a now]) key = some entry → validatePhyPortNo entry.portNo = .ok ()) →
    habit.handles history a.datapathId = true → habit.learns frame.packetInfo = true → ∃ s',
      c.handlePacketIn now a.datapathId packetIn s = .ok (s',answer packetIn frame (identifiers s)
        ((habit.locate (history ++ [.received a now]) ⟨frame.packetInfo.ethMacda,a.datapathId⟩).map
          ForwardingEntry.portNo)) ∧
      identifiers s' = taken packetIn (identifiers s) ((habit.locate (history ++ [.received a now])
        ⟨frame.packetInfo.ethMacda,a.datapathId⟩).map ForwardingEntry.portNo) ∧
      Inv (history ++ [.received a now]) s'
  ignored : ∀ {history s a packetIn} (now), Inv history s → arrival a = some packetIn →
    (habit.handles history a.datapathId = false ∨
      ∃ frame, packetIn.data = some frame ∧ habit.learns frame.packetInfo = false) →
    c.handlePacketIn now a.datapathId packetIn s = .ok (s,[]) ∧ Inv (history ++ [.received a now]) s
  stopped : ∀ {history s a now packetIn}, Inv history s → arrival a = some packetIn → packetIn.data = none →
    habit.handles history a.datapathId = true → c.handlePacketIn now a.datapathId packetIn s = .error .aborted
  passed : ∀ {history s a now}, Inv history s → arrival a = none → Inv (history ++ [.received a now]) s
  switchReady : ∀ {history s} (datapathId), Inv history s → ∃ s',
    (if c.switchEvents then c.handleSwitchReady datapathId s else s) = s' ∧ identifiers s' = identifiers s ∧
      Inv (history ++ [.switchReady datapathId]) s'
  switchDisconnected : ∀ {history s} (datapathId), Inv history s → ∃ s',
    (if c.switchEvents then c.handleSwitchDisconnected datapathId s else s) = s' ∧ identifiers s' = identifiers s ∧
      Inv (history ++ [.switchDisconnected datapathId]) s'
  aged : ∀ {history s} (clock), Inv history s → identifiers (c.age clock s) = identifiers s ∧
    Inv (history ++ [.aging clock]) (c.age clock s)

namespace Follows

variable {σ : Type} {c : Controller σ} {habit : Habit} {identifiers : σ → Identifiers} {Inv : List Event → σ → Prop}
  {heap : Nat → UInt8} {ids : Identifiers} {history : List Event} {sent : List Sent} {s : σ} {e : Event}

def Accepted (sent : Sent) : Prop := Yields (fun n => validateOpenflowMessage n sent.message) (.ok ())

structure Holds (identifiers : σ → Identifiers) (Inv : List Event → σ → Prop) (ids : Identifiers) (history : List Event)
    (sent : List Sent) (s : σ) : Prop where
  kept : Inv history s
  fit : ∀ e ∈ history, e.Fit
  taken : identifiers s = ids.after sent
  accepted : ∀ m ∈ sent, Accepted m

theorem fit_snoc (h : ∀ e ∈ history, e.Fit) (he : e.Fit) : ∀ e' ∈ history ++ [e], e'.Fit := by
  intro e' he'
  rcases List.mem_append.mp he' with he' | he'
  · exact h e' he'
  · rwa [List.mem_singleton.mp he']

theorem holds_quiet (hs : Holds identifiers Inv ids history sent s) (he : e.Fit) {s' : σ}
    (hids : identifiers s' = identifiers s) (hkept : Inv (history ++ [e]) s') :
    Holds identifiers Inv ids (history ++ [e]) (sent ++ []) s' := by
  rw [List.append_nil]
  exact ⟨hkept,fit_snoc hs.fit he,hids.trans hs.taken,hs.accepted⟩

theorem step_good (hf : Follows c habit identifiers Inv) (hs : Holds identifiers Inv ids history sent s) (he : e.Fit)
    (hstops : ¬ habit.Stops history e) :
    ∃ s', Yields (fun n => c.step heap n s e) (.ok (s',habit.reply ids history sent e)) ∧
      Holds identifiers Inv ids (history ++ [e]) (sent ++ habit.reply ids history sent e) s' := by
  cases e with
  | received a now =>
    have hcut : ¬ Cut a := fun h => hstops (.inl h)
    cases hp : arrival a with
    | none =>
      simp only [Habit.reply,hp]
      exact ⟨s,Controller.step_other he.1 hcut hp,holds_quiet hs he rfl (hf.passed hs.kept hp)⟩
    | some packetIn =>
      cases hdata : packetIn.data with
      | none =>
        have hunhandled : habit.handles history a.datapathId = false :=
          eq_false_of_ne_true fun h => hstops (.inr ⟨h,packetIn,hp,hdata⟩)
        obtain ⟨hcall,hkept⟩ := hf.ignored now hs.kept hp (.inl hunhandled)
        simp only [Habit.reply,hp,hdata]
        exact ⟨s,Controller.step_packetIn he.1 hcut hp hcall (by simp),holds_quiet hs he rfl hkept⟩
      | some frame =>
        have hans : packetIn.Answerable frame := Event.Fit.answerable he hp hdata
        simp only [Habit.reply,hp,hdata]
        by_cases hlearn : habit.handles history a.datapathId && habit.learns frame.packetInfo
        · have hports : ∀ key entry, habit.locate (history ++ [.received a now]) key = some entry →
              validatePhyPortNo entry.portNo = .ok () := fun _ _ h => located_port (fit_snoc hs.fit he) h
          rw [if_pos hlearn]
          rw [Bool.and_eq_true] at hlearn
          obtain ⟨s',hcall,hids,hkept⟩ := hf.answered hs.kept hp hdata hans hports hlearn.1 hlearn.2
          rw [hs.taken] at hcall hids
          refine ⟨s',Controller.step_packetIn he.1 hcut hp hcall (by simp),hkept,fit_snoc hs.fit he,?_,?_⟩
          · rw [hids,after_append,after_answer]
          · intro m hm
            rcases List.mem_append.mp hm with hm | hm
            · exact hs.accepted m hm
            · refine (answer_accepted hans (fun port hport => ?_) (ids.after sent) m hm).2
              obtain ⟨entry,hentry,rfl⟩ := Option.map_eq_some_iff.mp hport
              exact hports _ entry hentry
        · rw [if_neg hlearn]
          have hignored : habit.handles history a.datapathId = false ∨
              ∃ frame, packetIn.data = some frame ∧ habit.learns frame.packetInfo = false := by
            rcases Bool.eq_false_or_eq_true (habit.handles history a.datapathId) with h | h
            · refine .inr ⟨frame,hdata,?_⟩
              rw [h,Bool.true_and] at hlearn
              exact eq_false_of_ne_true hlearn
            · exact .inl h
          obtain ⟨hcall,hkept⟩ := hf.ignored now hs.kept hp hignored
          exact ⟨s,Controller.step_packetIn he.1 hcut hp hcall (by simp),holds_quiet hs he rfl hkept⟩
  | switchReady datapathId =>
    obtain ⟨s',hs',hids,hkept⟩ := hf.switchReady datapathId hs.kept
    exact ⟨s',hs' ▸ Controller.step_switchReady datapathId,holds_quiet hs he hids hkept⟩
  | switchDisconnected datapathId =>
    obtain ⟨s',hs',hids,hkept⟩ := hf.switchDisconnected datapathId hs.kept
    exact ⟨s',hs' ▸ Controller.step_switchDisconnected datapathId,holds_quiet hs he hids hkept⟩
  | aging clock =>
    obtain ⟨hids,hkept⟩ := hf.aged clock hs.kept
    exact ⟨c.age clock s,yields_ok rfl,holds_quiet hs he hids hkept⟩

theorem step_stops (hf : Follows c habit identifiers Inv) (hs : Holds identifiers Inv ids history sent s) (he : e.Fit)
    (hstops : habit.Stops history e) : Yields (fun n => c.step heap n s e) (.error .aborted) := by
  cases e with
  | received a now =>
    by_cases hcut : Cut a
    · exact Controller.step_cut he.1 hcut
    · obtain ⟨hhandles,packetIn,hp,hdata⟩ := hstops.resolve_left hcut
      exact Controller.step_packetIn he.1 hcut hp (hf.stopped hs.kept hp hdata hhandles) (by simp)
  | _ => exact hstops.elim

theorem told (hf : Follows c habit identifiers Inv) (hs : Inv [] s) (h : ∀ e ∈ history, e.Fit) :
    ((∀ front e back, history = front ++ e :: back → ¬ habit.Stops front e) →
      ∃ s' sent, Yields (fun n => respond (c.step heap) n s history) (.ok (s',sent)) ∧ sent.length = history.length ∧
        (∀ front e back, history = front ++ e :: back → ∃ out, sent[front.length]? = some out ∧
          habit.Replies (identifiers s) front (sent.take front.length).flatten e out) ∧
        ∀ m ∈ sent.flatten, Accepted m) ∧
    ((∃ front e back, history = front ++ e :: back ∧ habit.Stops front e) →
      Yields (fun n => respond (c.step heap) n s history) (.error .aborted)) := by
  have hstart : Holds identifiers Inv (identifiers s) [] [] s := ⟨hs,by simp,rfl,by simp⟩
  obtain ⟨hgood,hbad⟩ := respond_told (c.settled_step heap) (fun hs he hn => step_good hf hs he hn)
    (fun hs he hstops => step_stops hf hs he hstops) hstart h
  refine ⟨fun hnone => ?_,hbad⟩
  obtain ⟨s',hyields,hholds⟩ := hgood hnone
  refine ⟨s',_,hyields,length_answers _ _ _,?_,hholds.accepted⟩
  rintro front e back rfl
  exact ⟨_,answers_split [] [] front back e,habit.reply_replies _ _ _ _⟩

end Follows

section Frames

-- A packet-in of switch 1 with a whole frame of fourteen bytes.
def etherIn (xid : UInt32) (inPort : UInt16) (frame : Bytes) : Announced :=
  ⟨1,xid,.packetIn uint32Max 14 inPort 0 (some frame)⟩

variable {xid : UInt32} {inPort : UInt16} {bytes : Bytes} {info : PacketInfo}

theorem arrival_etherIn (hlen : bytes.length = 14) (hparsed : parsePacket bytes 15 = .ok info) :
    arrival (etherIn xid inPort bytes) = some ⟨1,xid,uint32Max,14,inPort,0,some ⟨bytes,info⟩⟩ := by
  have hne : bytes ≠ [] := by
    rw [Ne,← List.length_eq_zero_iff,hlen]
    decide
  have hframe : frameOf 15 (some bytes) = .ok (some ⟨bytes,info⟩) := by
    rw [frameOf,hparsed]
    rfl
  simp only [arrival,etherIn,handedData,Option.getD_some,if_neg hne,hlen,Nat.reduceAdd,hframe]

theorem etherIn_fit (hlen : bytes.length = 14) (hparsed : parsePacket bytes 15 = .ok info)
    (hport : validatePhyPortNo inPort = .ok ()) (now : Int) : (Event.received (etherIn xid inPort bytes) now).Fit := by
  refine ⟨⟨⟨hport,by decide⟩,trivial,?_⟩,?_⟩
  · simp [etherIn,Construction.size,Construction.body,hlen]
  · intro packetIn frame hp hf _
    rw [arrival_etherIn hlen hparsed] at hp
    rw [← Option.some.inj hp] at hf
    rw [← Option.some.inj hf]
    exact hlen.le.trans (by decide)

theorem etherIn_goes (hlen : bytes.length = 14) (hparsed : parsePacket bytes 15 = .ok info) (habit : Habit)
    (front : List Event) (now : Int) : ¬ habit.Stops front (.received (etherIn xid inPort bytes) now) := by
  rintro (⟨_,_,_,_,data,hm,frame,rfl,hends⟩ | ⟨_,packetIn,hp,hdata⟩)
  · have hframe : bytes = frame := by
      simp only [etherIn,Construction.packetIn.injEq,Option.some.injEq] at hm
      exact hm.2.2.2.2
    subst hframe
    rcases parsePacket_yields bytes with ⟨_,habort⟩ | ⟨hwhole,_⟩
    · exact absurd ((settled_parsePacket bytes).yields_unique ⟨by simp,15,hparsed⟩ habort) (by simp)
    · exact hwhole hends
  · rw [arrival_etherIn hlen hparsed] at hp
    rw [← Option.some.inj hp] at hdata
    exact absurd hdata (by simp)

def broadcastFrame : Bytes := List.replicate 6 0xff ++ [0,0,0,0,0,1,0x88,0xb5]

-- The answer to the broadcast: to the station that sent it, from another port.
def answerFrame : Bytes := [0,0,0,0,0,1,0,0,0,0,0,2,0x88,0xb5]

def broadcast : Announced := etherIn 7 1 broadcastFrame

def answering : Announced := etherIn 8 2 answerFrame

theorem broadcast_parsed : ∃ asked, parsePacket broadcastFrame 15 = .ok asked ∧ asked.ethMacsa = ⟨0,0,0,0,0,1⟩ ∧
    packetTypeEther asked = true := ⟨_,rfl,rfl,rfl⟩

theorem answer_parsed : ∃ told, parsePacket answerFrame 15 = .ok told ∧ told.ethMacsa = ⟨0,0,0,0,0,2⟩ ∧
    told.ethMacda = ⟨0,0,0,0,0,1⟩ ∧ packetTypeEther told = true := ⟨_,rfl,rfl,rfl,rfl⟩

theorem notice_etherIn {habit : Habit} (hlen : bytes.length = 14) (hparsed : parsePacket bytes 15 = .ok info)
    (hlearns : habit.learns info = true) (now : Int) : habit.notice (.received (etherIn xid inPort bytes) now) =
      some (.note ⟨info.ethMacsa,1⟩ ⟨inPort,now⟩) := by
  simp only [Habit.notice,arrival_etherIn hlen hparsed,Option.bind_eq_bind,Option.bind_some]
  exact if_pos hlearns

-- The station that broadcast is found at port 1 when it is answered.
theorem located_answering {habit : Habit} {asked told : PacketInfo} (hasked : parsePacket broadcastFrame 15 = .ok asked)
    (htold : parsePacket answerFrame 15 = .ok told) (hasks : habit.learns asked = true)
    (htells : habit.learns told = true) (front : List Event) :
    habit.locate (front ++ [.received broadcast 0] ++ [.received answering 5]) ⟨told.ethMacda,1⟩ = some ⟨1,0⟩ := by
  obtain ⟨asked',hparsed,hsender,_⟩ := broadcast_parsed
  obtain rfl := Except.ok.inj (hasked.symm.trans hparsed)
  obtain ⟨told',hparsed',hanswerer,hreceiver,_⟩ := answer_parsed
  obtain rfl := Except.ok.inj (htold.symm.trans hparsed')
  rw [broadcast,answering,Habit.locate_snoc,notice_etherIn rfl htold htells,Habit.locate_snoc,
    notice_etherIn rfl hasked hasks,hsender,hanswerer,hreceiver]
  simp [Notice.update,Function.update]

theorem conversation_goes (habit : Habit) : ∀ e ∈ [Event.received broadcast 0,.received answering 5],
    e.Fit ∧ ∀ front, ¬ habit.Stops front e := by
  obtain ⟨_,hasked,_⟩ := broadcast_parsed
  obtain ⟨_,htold,_⟩ := answer_parsed
  intro e he
  rcases List.mem_pair.mp he with rfl | rfl
  · exact ⟨etherIn_fit rfl hasked rfl 0,fun front => etherIn_goes rfl hasked habit front 0⟩
  · exact ⟨etherIn_fit rfl htold rfl 5,fun front => etherIn_goes rfl htold habit front 5⟩

theorem answering_forwarded {habit : Habit} {ids : Identifiers} (front : List Event) {sent out : List Sent}
    (hhandles : habit.handles (front ++ [.received broadcast 0]) 1 = true)
    (hlearns : ∀ info, packetTypeEther info = true → habit.learns info = true)
    (h : habit.Replies ids (front ++ [.received broadcast 0]) sent (.received answering 5) out) :
    ∃ packetIn frame, arrival answering = some packetIn ∧ packetIn.data = some frame ∧
      out = answer packetIn frame (ids.after sent) (some 1) := by
  obtain ⟨asked,hasked,_,hetherAsked⟩ := broadcast_parsed
  obtain ⟨told,htold,_,_,hetherTold⟩ := answer_parsed
  have hlocated := located_answering hasked htold (hlearns asked hetherAsked) (hlearns told hetherTold) front
  obtain ⟨packetIn,harrival,hdata⟩ : ∃ packetIn, arrival answering = some packetIn ∧
      packetIn.data = some ⟨answerFrame,told⟩ := ⟨_,arrival_etherIn rfl htold,rfl⟩
  have hanswer := h.located harrival hdata hhandles (hlearns told hetherTold) hlocated
  exact ⟨packetIn,_,harrival,hdata,hanswer⟩

end Frames

end Trema.Controllers
