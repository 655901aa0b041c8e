import Trema.Controllers.Traffic
import Trema.SwitchManager.ListSwitches

namespace Trema.Controllers

open Library OpenFlow Packet Table
open SwitchManager (compareDatapathId hashDatapathId)

def compareMac (x y : Mac) : Bool := x == y

-- The value is the forwarding_db of a known_switch, which the table holds by its pointer.
structure MultiLearningSwitch where
  switchDb : HashTable UInt64 (HashTable Mac ForwardingEntry)
  identifiers : Identifiers

namespace MultiLearningSwitch

def learn : HashTable Mac ForwardingEntry → Mac → UInt16 → Int → HashTable Mac ForwardingEntry :=
  learnEntry compareMac hashMac

def updateAllEntries (clock : Key → Int) (datapathId : UInt64) (forwardingDb : HashTable Mac ForwardingEntry) :
    HashTable Mac ForwardingEntry :=
  sweep compareMac hashMac (fun e => agedOut (clock ⟨e.1,datapathId⟩) e.2) forwardingDb

def updateAllSwitches (clock : Key → Int) (s : MultiLearningSwitch) : MultiLearningSwitch :=
  { s with switchDb := adjust compareDatapathId hashDatapathId (updateAllEntries clock) s.switchDb }

def handleSwitchReady (datapathId : UInt64) (s : MultiLearningSwitch) : MultiLearningSwitch :=
  match lookupHashEntry compareDatapathId hashDatapathId s.switchDb datapathId with
  | none => { s with switchDb := (insertHashEntry compareDatapathId hashDatapathId s.switchDb datapathId createHash).2 }
  | some _ =>
    { s with switchDb := modifyHashEntry compareDatapathId hashDatapathId s.switchDb datapathId fun _ => createHash }

def handleSwitchDisconnected (datapathId : UInt64) (s : MultiLearningSwitch) : MultiLearningSwitch :=
  { s with switchDb := (deleteHashEntry compareDatapathId hashDatapathId s.switchDb datapathId).2 }

def handlePacketIn (now : Int) (datapathId : UInt64) (message : PacketIn) (s : MultiLearningSwitch) :
    Exec (MultiLearningSwitch × List Sent) :=
  match lookupHashEntry compareDatapathId hashDatapathId s.switchDb datapathId with
  | none => pure (s,[])
  | some forwardingDb => do
    let frame ← present message.data
    let forwardingDb := learn forwardingDb frame.packetInfo.ethMacsa message.inPort now
    let switchDb := modifyHashEntry compareDatapathId hashDatapathId s.switchDb datapathId fun _ => forwardingDb
    let (identifiers,sent) ←
      match lookupHashEntry compareMac hashMac forwardingDb frame.packetInfo.ethMacda with
      | none => doFlooding s.identifiers message
      | some destination => sendPacket s.identifiers message destination.portNo
    pure (⟨switchDb,identifiers⟩,sent)

def controller : Controller MultiLearningSwitch :=
  ⟨true,handlePacketIn,handleSwitchReady,handleSwitchDisconnected,updateAllSwitches⟩

def start (ids : Identifiers) : MultiLearningSwitch := ⟨createHash,ids⟩

-- The switch is ready, and has not disconnected since.
def knows (history : List Event) (datapathId : UInt64) : Bool :=
  history.foldl (fun known e =>
    match e with
    | .switchReady other => known || other == datapathId
    | .switchDisconnected other => known && other != datapathId
    | _ => known) false

-- Frames of the switches that are ready, with or without an Ethernet header.
def habit : Habit := ⟨fun _ => true,true,knows⟩

theorem compareMac_iff (x y : Mac) : compareMac x y = true ↔ x = y := beq_iff_eq

theorem compareDatapathId_iff (x y : UInt64) : compareDatapathId x y = true ↔ x = y := beq_iff_eq

structure Kept (history : List Event) (s : MultiLearningSwitch) (dbs : UInt64 → Option (HashTable Mac ForwardingEntry)) :
    Prop where
  switches : Tracks compareDatapathId hashDatapathId s.switchDb dbs
  known : ∀ datapathId, (dbs datapathId).isSome = knows history datapathId
  learned : ∀ datapathId db, dbs datapathId = some db →
    Tracks compareMac hashMac db fun mac => habit.locate history ⟨mac,datapathId⟩

variable {history : List Event} {s : MultiLearningSwitch} {dbs : UInt64 → Option (HashTable Mac ForwardingEntry)}
  {a : Application.Announced} {now : Int} {packetIn : PacketIn} {frame : Frame} {datapathId : UInt64}

theorem notice_frame (hp : arrival a = some packetIn) (hdata : packetIn.data = some frame) :
    habit.notice (.received a now) =
      some (.note ⟨frame.packetInfo.ethMacsa,a.datapathId⟩ ⟨packetIn.inPort,now⟩) := by
  simp only [Habit.notice,hp,hdata,Option.bind_eq_bind,Option.bind_some]
  exact if_pos rfl

theorem knows_received : knows (history ++ [.received a now]) datapathId = knows history datapathId := by
  rw [knows,List.foldl_append]
  rfl

theorem knows_aging {clock : Key → Int} : knows (history ++ [.aging clock]) datapathId = knows history datapathId := by
  rw [knows,List.foldl_append]
  rfl

theorem knows_ready {other : UInt64} :
    knows (history ++ [.switchReady other]) datapathId = (knows history datapathId || other == datapathId) := by
  rw [knows,List.foldl_append]
  rfl

theorem knows_disconnected {other : UInt64} :
    knows (history ++ [.switchDisconnected other]) datapathId = (knows history datapathId && other != datapathId) := by
  rw [knows,List.foldl_append]
  rfl

-- A frame changes what is located through its own switch only.
theorem locate_elsewhere {key : Key} (h : key.datapathId ≠ a.datapathId) :
    habit.locate (history ++ [.received a now]) key = habit.locate history key := by
  rw [Habit.locate_snoc]
  cases hn : habit.notice (.received a now) with
  | none => rfl
  | some n =>
    simp only [Habit.notice,Option.bind_eq_bind,Option.bind_eq_some_iff] at hn
    obtain ⟨packetIn,_,frame,_,hn⟩ := hn
    have hnote : Notice.note ⟨frame.packetInfo.ethMacsa,a.datapathId⟩ ⟨packetIn.inPort,now⟩ = n :=
      Option.some.inj ((if_pos rfl).symm.trans hn)
    rw [← hnote]
    exact Function.update_of_ne (fun hkey => h (congrArg Key.datapathId hkey)) _ _

theorem kept_unknown (hs : Kept history s dbs) (hunknown : knows history a.datapathId = false) :
    Kept (history ++ [.received a now]) s dbs where
  switches := hs.switches
  known := fun datapathId => by rw [knows_received,hs.known]
  learned := fun datapathId db hdb => by
    have hother : datapathId ≠ a.datapathId := by
      rintro rfl
      have := hs.known a.datapathId
      rw [hdb,hunknown] at this
      exact absurd this (by simp)
    exact (hs.learned datapathId db hdb).congr fun mac => (locate_elsewhere hother).symm

theorem kept_learn (now : Int) (hs : Kept history s dbs) (hp : arrival a = some packetIn) (hdata : packetIn.data = some frame)
    {db : HashTable Mac ForwardingEntry} (hdb : dbs a.datapathId = some db) (ids : Identifiers) :
    Kept (history ++ [.received a now])
      ⟨modifyHashEntry compareDatapathId hashDatapathId s.switchDb a.datapathId fun _ =>
        learn db frame.packetInfo.ethMacsa packetIn.inPort now,ids⟩
      (Function.update dbs a.datapathId (some (learn db frame.packetInfo.ethMacsa packetIn.inPort now))) where
  switches := by
    have hmodified := hs.switches.modify compareDatapathId_iff a.datapathId fun _ =>
      learn db frame.packetInfo.ethMacsa packetIn.inPort now
    rwa [hdb] at hmodified
  known := fun datapathId => by
    rw [knows_received,← hs.known,Function.update_apply]
    split
    · rename_i h
      rw [h,hdb]
      rfl
    · rfl
  learned := fun datapathId db' hdb' => by
    by_cases h : datapathId = a.datapathId
    · subst h
      rw [Function.update_self] at hdb'
      rw [← Option.some.inj hdb']
      refine (Tracks.learnEntry compareMac_iff (hs.learned _ db hdb) _ _ _).congr fun mac => ?_
      simp only [Habit.locate_snoc,notice_frame hp hdata,Notice.update,Function.update_apply,Key.mk.injEq,and_true]
    · rw [Function.update_of_ne h] at hdb'
      exact (hs.learned datapathId db' hdb').congr fun mac => (locate_elsewhere h).symm

-- A switch that comes or goes takes what was learned of it along.
theorem locate_forgotten {e : Event} {key : Key}
    (he : habit.notice e = some (.purge fun key _ => decide (key.datapathId = datapathId))) :
    habit.locate (history ++ [e]) key =
      if key.datapathId = datapathId then none else habit.locate history key := by
  rw [Habit.locate_snoc,he]
  change (habit.locate history key).filter _ = _
  by_cases h : key.datapathId = datapathId
  · rw [if_pos h]
    simp [h]
  · rw [if_neg h]
    cases habit.locate history key with
    | none => rfl
    | some entry => simp [h]

theorem kept_ready (hs : Kept history s dbs) (ids : Identifiers) {db : HashTable UInt64 (HashTable Mac ForwardingEntry)}
    (hdb : Tracks compareDatapathId hashDatapathId db (Function.update dbs datapathId (some createHash))) :
    Kept (history ++ [.switchReady datapathId]) ⟨db,ids⟩ (Function.update dbs datapathId (some createHash)) where
  switches := hdb
  known := fun other => by
    rw [knows_ready,← hs.known,Function.update_apply]
    split
    · rename_i h
      simp [h]
    · rename_i h
      simp [Ne.symm h]
  learned := fun other t ht => by
    by_cases h : other = datapathId
    · subst h
      rw [Function.update_self] at ht
      rw [← Option.some.inj ht]
      exact (tracks_create _ _).congr fun mac => by rw [locate_forgotten rfl,if_pos rfl]
    · rw [Function.update_of_ne h] at ht
      exact (hs.learned other t ht).congr fun mac => by rw [locate_forgotten rfl,if_neg h]

theorem kept_disconnected (hs : Kept history s dbs) : Kept (history ++ [.switchDisconnected datapathId])
    (handleSwitchDisconnected datapathId s) (Function.update dbs datapathId none) where
  switches := (hs.switches.delete compareDatapathId_iff datapathId).2
  known := fun other => by
    rw [knows_disconnected,← hs.known,Function.update_apply]
    split
    · rename_i h
      simp [h]
    · rename_i h
      simp [Ne.symm h]
  learned := fun other t ht => by
    by_cases h : other = datapathId
    · rw [h,Function.update_self] at ht
      exact absurd ht (by simp)
    · rw [Function.update_of_ne h] at ht
      exact (hs.learned other t ht).congr fun mac => by rw [locate_forgotten rfl,if_neg h]

theorem kept_aged (hs : Kept history s dbs) (clock : Key → Int) : Kept (history ++ [.aging clock]) (updateAllSwitches clock s)
    fun datapathId => (dbs datapathId).map (updateAllEntries clock datapathId) where
  switches := hs.switches.adjust compareDatapathId_iff _
  known := fun datapathId => by rw [knows_aging,← hs.known,Option.isSome_map]
  learned := fun datapathId db hdb => by
    obtain ⟨old,hold,rfl⟩ := Option.map_eq_some_iff.mp hdb
    refine (Tracks.sweep compareMac_iff _ (hs.learned datapathId old hold)).congr fun mac => ?_
    rw [Habit.locate_snoc]
    rfl

theorem follows : Follows controller habit MultiLearningSwitch.identifiers fun history s => ∃ dbs, Kept history s dbs where
  answered := by
    rintro history s a now packetIn frame ⟨dbs,hs⟩ hp hdata hans hports hhandles _
    obtain ⟨db,hdb⟩ := Option.isSome_iff_exists.mp ((hs.known a.datapathId).trans hhandles)
    have hlearned := kept_learn now hs hp hdata hdb
    have hfound := ((hlearned s.identifiers).learned a.datapathId _ (Function.update_self ..)).found
      frame.packetInfo.ethMacda
    have hpresent : present packetIn.data = .ok frame := by rw [hdata]; rfl
    simp only [controller,handlePacketIn,hs.switches.found,hdb,hpresent,ok_bind,hfound]
    cases hlocated : habit.locate (history ++ [.received a now]) ⟨frame.packetInfo.ethMacda,a.datapathId⟩ with
    | none =>
      refine ⟨⟨_,_⟩,?_,rfl,_,hlearned _⟩
      simp only [doFlooding_eq hans,ok_bind]
      rfl
    | some destination =>
      refine ⟨⟨_,_⟩,?_,rfl,_,hlearned _⟩
      simp only [sendPacket_eq hans (hports _ _ hlocated),ok_bind]
      rfl
  ignored := by
    rintro history s a packetIn now ⟨dbs,hs⟩ _ (hhandles | ⟨frame,_,hother⟩)
    · refine ⟨?_,dbs,kept_unknown hs hhandles⟩
      have hnone : dbs a.datapathId = none := by
        rw [← Option.not_isSome_iff_eq_none,hs.known]
        exact Bool.eq_false_iff.mp hhandles
      simp only [controller,handlePacketIn,hs.switches.found,hnone]
      rfl
    · exact absurd hother (by simp [habit])
  stopped := by
    rintro history s a now packetIn ⟨dbs,hs⟩ _ hdata hhandles
    obtain ⟨db,hdb⟩ := Option.isSome_iff_exists.mp ((hs.known a.datapathId).trans hhandles)
    simp only [controller,handlePacketIn,hs.switches.found,hdb,hdata]
    rfl
  passed := by
    rintro history s a now ⟨dbs,hs⟩ hnone
    have hquiet : habit.notice (.received a now) = none := by
      simp only [Habit.notice,hnone]
      rfl
    refine ⟨dbs,hs.switches,fun datapathId => by rw [knows_received,hs.known],fun datapathId db hdb => ?_⟩
    exact (hs.learned datapathId db hdb).congr fun mac => by rw [Habit.locate_snoc,hquiet]
  switchReady := by
    rintro history s datapathId ⟨dbs,hs⟩
    refine ⟨handleSwitchReady datapathId s,if_pos rfl,?_,Function.update dbs datapathId (some createHash),?_⟩
    · unfold handleSwitchReady
      split <;> rfl
    · unfold handleSwitchReady
      rw [hs.switches.found]
      cases hdb : dbs datapathId with
      | none => exact kept_ready hs _ (hs.switches.insert compareDatapathId_iff datapathId createHash)
      | some db =>
        have hmodified := hs.switches.modify compareDatapathId_iff datapathId fun _ => createHash
        rw [hdb] at hmodified
        exact kept_ready hs _ hmodified
  switchDisconnected := by
    rintro history s datapathId ⟨dbs,hs⟩
    exact ⟨_,if_pos rfl,rfl,_,kept_disconnected hs⟩
  aged := by
    rintro history s clock ⟨dbs,hs⟩
    exact ⟨rfl,_,kept_aged hs clock⟩

theorem multi_learning_switch_runs (heap : Nat → UInt8) (ids : Identifiers) (history : List Event) (h : ∀ e ∈ history, e.Fit) :
    ((∀ front e back, history = front ++ e :: back → ¬ habit.Stops front e) →
      ∃ s sent, Yields (fun n => respond (controller.step heap) n (start ids) history) (.ok (s,sent)) ∧
        sent.length = history.length ∧
        (∀ front e back, history = front ++ e :: back → ∃ out, sent[front.length]? = some out ∧
          habit.Replies ids front (sent.take front.length).flatten e out) ∧
        ∀ m ∈ sent.flatten, Yields (fun n => validateOpenflowMessage n m.message) (.ok ())) ∧
    ((∃ front e back, history = front ++ e :: back ∧ habit.Stops front e) →
      Yields (fun n => respond (controller.step heap) n (start ids) history) (.error .aborted)) :=
  follows.told ⟨_,tracks_create _ _,fun _ => rfl,fun _ _ h => absurd h (by simp)⟩ h

theorem multi_learning_switch_runs_answering : ∃ s first packetIn frame, arrival answering = some packetIn ∧
    packetIn.data = some frame ∧
    Yields (fun n => respond (controller.step fun _ => 0) n (start ⟨0,0⟩)
        [.switchReady 1,.received broadcast 0,.received answering 5])
      (.ok (s,[[],first,answer packetIn frame ((⟨0,0⟩ : Identifiers).after first) (some 1)])) := by
  have hgoes : ∀ e ∈ [Event.switchReady 1,.received broadcast 0,.received answering 5],
      e.Fit ∧ ∀ front, ¬ habit.Stops front e :=
    List.forall_mem_cons.mpr ⟨⟨trivial,fun _ => not_false⟩,conversation_goes habit⟩
  obtain ⟨s,sent,hyields,hlen,hreplies,_⟩ := (multi_learning_switch_runs (fun _ => 0) ⟨0,0⟩
    [.switchReady 1,.received broadcast 0,.received answering 5] fun e he => (hgoes e he).1).1
      fun front e back hsplit => (hgoes e (by rw [hsplit]; simp)).2 front
  obtain ⟨ready,first,second,rfl⟩ := List.length_eq_three.mp hlen
  obtain ⟨out,hout,hquiet⟩ := hreplies [] (.switchReady 1) [.received broadcast 0,.received answering 5] rfl
  obtain rfl : ready = out := Option.some.inj hout
  obtain rfl : ready = [] := by
    cases hquiet
    rfl
  obtain ⟨out,hout,hreply⟩ := hreplies [.switchReady 1,.received broadcast 0] (.received answering 5) [] rfl
  obtain rfl : second = out := Option.some.inj hout
  obtain ⟨packetIn,frame,harrival,hdata,hanswer⟩ :=
    answering_forwarded [.switchReady 1] (by decide) (fun _ _ => rfl) hreply
  rw [hanswer] at hyields
  exact ⟨s,first,packetIn,frame,harrival,hdata,by simpa using hyields⟩

end MultiLearningSwitch

end Trema.Controllers
