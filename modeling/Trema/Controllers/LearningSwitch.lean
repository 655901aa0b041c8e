import Trema.Controllers.Traffic

namespace Trema.Controllers

open Library OpenFlow Packet Table

def hashForwardingEntry (key : Key) : UInt32 := hashMac key.mac

def compareForwardingEntry (x y : Key) : Bool := x.mac == y.mac && x.datapathId == y.datapathId

structure LearningSwitch where
  forwardingDb : HashTable Key ForwardingEntry
  identifiers : Identifiers

namespace LearningSwitch

def learn : HashTable Key ForwardingEntry → Key → UInt16 → Int → HashTable Key ForwardingEntry :=
  learnEntry compareForwardingEntry hashForwardingEntry

def updateForwardingDb (clock : Key → Int) (s : LearningSwitch) : LearningSwitch :=
  { s with forwardingDb := sweep compareForwardingEntry hashForwardingEntry (fun e => agedOut (clock e.1) e.2) s.forwardingDb }

def handlePacketIn (now : Int) (datapathId : UInt64) (message : PacketIn) (s : LearningSwitch) :
    Exec (LearningSwitch × List Sent) := do
  let frame ← present message.data
  if packetTypeEther frame.packetInfo then do
    let forwardingDb := learn s.forwardingDb ⟨frame.packetInfo.ethMacsa,datapathId⟩ message.inPort now
    let (identifiers,sent) ←
      match lookupHashEntry compareForwardingEntry hashForwardingEntry forwardingDb ⟨frame.packetInfo.ethMacda,datapathId⟩ with
      | none => doFlooding s.identifiers message
      | some destination => sendPacket s.identifiers message destination.portNo
    pure (⟨forwardingDb,identifiers⟩,sent)
  else pure (s,[])

-- main sets no handlers of switch events.
def controller : Controller LearningSwitch :=
  ⟨false,handlePacketIn,fun _ s => s,fun _ s => s,updateForwardingDb⟩

def start (ids : Identifiers) : LearningSwitch := ⟨createHash,ids⟩

-- Ethernet frames of any switch.
def habit : Habit := ⟨packetTypeEther,false,fun _ _ => true⟩

theorem compareForwardingEntry_iff (x y : Key) : compareForwardingEntry x y = true ↔ x = y := by
  rw [compareForwardingEntry,Bool.and_eq_true,beq_iff_eq,beq_iff_eq,Key.mk.injEq]

def Kept (history : List Event) (s : LearningSwitch) : Prop :=
  Tracks compareForwardingEntry hashForwardingEntry s.forwardingDb (habit.locate history)

variable {history : List Event} {s : LearningSwitch} {a : Application.Announced} {now : Int} {packetIn : PacketIn} {frame : Frame}

theorem notice_ether (hp : arrival a = some packetIn) (hdata : packetIn.data = some frame)
    (hether : packetTypeEther frame.packetInfo = true) : habit.notice (.received a now) =
      some (.note ⟨frame.packetInfo.ethMacsa,a.datapathId⟩ ⟨packetIn.inPort,now⟩) := by
  simp only [Habit.notice,hp,hdata,Option.bind_eq_bind,Option.bind_some]
  exact if_pos hether

theorem kept_learn (now : Int) (hs : Kept history s) (hp : arrival a = some packetIn) (hdata : packetIn.data = some frame)
    (hether : packetTypeEther frame.packetInfo = true) : Tracks compareForwardingEntry hashForwardingEntry
      (learn s.forwardingDb ⟨frame.packetInfo.ethMacsa,a.datapathId⟩ packetIn.inPort now)
      (habit.locate (history ++ [.received a now])) := by
  rw [Habit.locate_snoc,notice_ether hp hdata hether]
  exact Tracks.learnEntry compareForwardingEntry_iff hs _ _ _

theorem kept_quiet {e : Event} (hs : Kept history s) (hnone : habit.notice e = none) : Kept (history ++ [e]) s := by
  rw [Kept,Habit.locate_snoc,hnone]
  exact hs

theorem follows : Follows controller habit LearningSwitch.identifiers Kept where
  answered := by
    intro history s a now packetIn frame hs hp hdata hans hports _ hether
    have hlearned := kept_learn now hs hp hdata hether
    have hpresent : present packetIn.data = .ok frame := by rw [hdata]; rfl
    have hether' : packetTypeEther frame.packetInfo = true := hether
    simp only [controller,handlePacketIn,hpresent,ok_bind,if_pos hether',hlearned.found]
    cases hlocated : habit.locate (history ++ [.received a now]) ⟨frame.packetInfo.ethMacda,a.datapathId⟩ with
    | none =>
      refine ⟨⟨_,_⟩,?_,rfl,hlearned⟩
      simp only [doFlooding_eq hans,ok_bind]
      rfl
    | some destination =>
      refine ⟨⟨_,_⟩,?_,rfl,hlearned⟩
      simp only [sendPacket_eq hans (hports _ _ hlocated),ok_bind]
      rfl
  ignored := by
    rintro history s a packetIn now hs hp (hhandles | ⟨frame,hdata,hother⟩)
    · exact absurd hhandles (by simp [habit])
    · have hpresent : present packetIn.data = .ok frame := by rw [hdata]; rfl
      have hother' : ¬ packetTypeEther frame.packetInfo = true := Bool.eq_false_iff.mp hother
      refine ⟨?_,kept_quiet hs ?_⟩
      · simp only [controller,handlePacketIn,hpresent,ok_bind,if_neg hother']
        rfl
      · simp only [Habit.notice,hp,hdata,Option.bind_eq_bind,Option.bind_some]
        exact if_neg hother'
  stopped := by
    intro history s a now packetIn _ _ hdata _
    simp only [controller,handlePacketIn,hdata]
    rfl
  passed := by
    intro history s a now hs hnone
    refine kept_quiet hs ?_
    simp only [Habit.notice,hnone]
    rfl
  switchReady := fun {_ s} _ hs => ⟨s,rfl,rfl,kept_quiet hs rfl⟩
  switchDisconnected := fun {_ s} _ hs => ⟨s,rfl,rfl,kept_quiet hs rfl⟩
  aged := by
    intro history s clock hs
    refine ⟨rfl,?_⟩
    rw [Kept,Habit.locate_snoc]
    exact Tracks.sweep compareForwardingEntry_iff _ hs

-- Whatever the switches send and the clock shows, each packet-in is answered from what was last learned.
theorem learning_switch_runs (heap : Nat → UInt8) (ids : Identifiers) (history : List Event) (h : ∀ e ∈ history, e.Fit) :
    ((∀ front e back, history = front ++ e :: back → ¬ habit.Stops front e) →
      ∃ s sent, Yields (fun n => respond (controller.step heap) n (start ids) history) (.ok (s,sent)) ∧
        sent.length = history.length ∧
        (∀ front e back, history = front ++ e :: back → ∃ out, sent[front.length]? = some out ∧
          habit.Replies ids front (sent.take front.length).flatten e out) ∧
        ∀ m ∈ sent.flatten, Yields (fun n => validateOpenflowMessage n m.message) (.ok ())) ∧
    ((∃ front e back, history = front ++ e :: back ∧ habit.Stops front e) →
      Yields (fun n => respond (controller.step heap) n (start ids) history) (.error .aborted)) :=
  follows.told (tracks_create _ _) h

-- Station 1 broadcasts at port 1, and the answer of station 2 is sent out there.
theorem learning_switch_runs_answering : ∃ s first packetIn frame, arrival answering = some packetIn ∧
    packetIn.data = some frame ∧
    Yields (fun n => respond (controller.step fun _ => 0) n (start ⟨0,0⟩) [.received broadcast 0,.received answering 5])
      (.ok (s,[first,answer packetIn frame ((⟨0,0⟩ : Identifiers).after first) (some 1)])) := by
  obtain ⟨s,sent,hyields,hlen,hreplies,_⟩ := (learning_switch_runs (fun _ => 0) ⟨0,0⟩
    [.received broadcast 0,.received answering 5] fun e he => (conversation_goes habit e he).1).1
      fun front e back hsplit => (conversation_goes habit e (by rw [hsplit]; simp)).2 front
  obtain ⟨first,second,rfl⟩ := List.length_eq_two.mp hlen
  obtain ⟨out,hout,hreply⟩ := hreplies [.received broadcast 0] (.received answering 5) [] rfl
  obtain rfl : second = out := Option.some.inj hout
  obtain ⟨packetIn,frame,harrival,hdata,hanswer⟩ := answering_forwarded [] rfl (fun _ hether => hether) hreply
  rw [hanswer] at hyields
  exact ⟨s,first,packetIn,frame,harrival,hdata,by simpa using hyields⟩

end LearningSwitch

end Trema.Controllers
