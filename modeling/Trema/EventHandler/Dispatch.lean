import Trema.EventHandler.Registration
import Trema.Library.Fuel
import Mathlib.Data.Set.Card

namespace Trema.EventHandler

open Library

variable {κ δ : Type}

inductive Event (κ δ : Type) where
  | op (op : Op κ δ)
  | called (kind : Kind) (fd : Int) (callback : κ) (data : Option δ)
  | calledExternal (callback : κ)

-- What happened, and the state right after it.
structure Moment (κ δ : Type) where
  event : Event κ δ
  handlers : Handlers κ δ

-- The history is kept with the newest moment first.
structure World (κ δ : Type) where
  handlers : Handlers κ δ
  history : List (Moment κ δ)

inductive Selection where
  | failed (interrupted : Bool)
  | ready (count : Nat) (sets : Kind → FdSet)

-- The callbacks, which may make any operations on any descriptors, and the select of the kernel.
structure Environment (κ δ : Type) (fdSetsize : Nat) where
  respond : List (Moment κ δ) → List (Op κ δ)
  respond_valid : ∀ history, ∀ op ∈ respond history, op.Valid fdSetsize
  select : List (Moment κ δ) → Int → (Kind → FdSet) → Int × Int → Selection
  select_subset : ∀ history n sets timeout count ready, select history n sets timeout = .ready count ready →
    ∀ k fd, ready k fd = true → sets k fd = true

variable {fdSetsize : Nat} (env : Environment κ δ fdSetsize)

def World.record (w : World κ δ) (event : Event κ δ) : World κ δ :=
  { w with history := ⟨event,w.handlers⟩ :: w.history }

variable (fdSetsize) in
def World.perform (w : World κ δ) (op : Op κ δ) : World κ δ :=
  let handlers := op.apply fdSetsize w.handlers
  ⟨handlers,⟨.op op,handlers⟩ :: w.history⟩

def invoke (event : Event κ δ) (w : World κ δ) : World κ δ :=
  let called := w.record event
  (env.respond called.history).foldl (World.perform fdSetsize) called

def callExternal (w : World κ δ) : World κ δ :=
  match w.handlers.externalCallback with
  | none => w
  | some callback => invoke env (.calledExternal callback)
      { w with handlers := { w.handlers with externalCallback := none } }

-- A call through a null pointer is a fault.
def dispatchTo (k : Kind) (current : EventFd κ δ) (w : World κ δ) : Run Empty (World κ δ) :=
  if w.handlers.currentSet k current.fd then
    match current.callback k with
    | none => .error .outOfBounds
    | some callback => .ok (invoke env (.called k current.fd callback (current.data k)) w)
  else .ok w

def dispatchEvent (p : World κ δ × Nat) : Run Empty (World κ δ × Nat) := do
  let current := p.1.handlers.eventList p.2
  let written ← dispatchTo env .write current p.1
  let w ← dispatchTo env .read current written
  pure (w,if current.fd = (w.handlers.eventList p.2).fd then p.2 + 1 else p.2)

def World.select (w : World κ δ) (sets : Kind → FdSet) : World κ δ :=
  { w with handlers := { w.handlers with currentSet := sets } }

def runEventHandlerOnce (fuel : Nat) (w : World κ δ) (timeoutUsec : Int) :
    Run Empty (Bool × World κ δ) := do
  let w := callExternal env w
  let w := w.select w.handlers.eventSet
  match env.select w.history w.handlers.fdSetSize w.handlers.currentSet
      (timeoutUsec.tdiv 1000000,timeoutUsec.tmod 1000000) with
  | .failed interrupted => pure (interrupted,w)
  | .ready 0 sets => pure (true,w.select sets)
  | .ready _ sets => do
    let p ← whileLoop (fun p : World κ δ × Nat => decide (p.2 < p.1.handlers.eventLast))
      (dispatchEvent env) fuel (w.select sets,0)
    pure (true,p.1)

inductive Reachable : World κ δ → Prop
  | init : Reachable ⟨initEventHandler κ δ,[]⟩
  | op {w : World κ δ} {op : Op κ δ} : Reachable w → op.Valid fdSetsize →
      Reachable (w.perform fdSetsize op)
  | once {w v : World κ δ} {fuel : Nat} {timeoutUsec : Int} {result : Bool} : Reachable w →
      runEventHandlerOnce env fuel w timeoutUsec = .ok (result,v) → Reachable v

def Event.register (registry : Registry κ δ) : Event κ δ → Registry κ δ
  | .op operation => operation.register registry
  | _ => registry

def registry : List (Moment κ δ) → Registry κ δ
  | [] => fun _ => none
  | m :: past => m.event.register (registry past)

structure World.Sound (fdSetsize : Nat) (w : World κ δ) : Prop where
  now : Consistent fdSetsize (registry w.history) w.handlers
  always : ∀ m past, m :: past <:+ w.history → Consistent fdSetsize (registry (m :: past)) m.handlers

def Event.Calls (k : Kind) (fd : Int) : Event κ δ → Prop
  | .called k' fd' _ _ => k' = k ∧ fd' = fd
  | _ => False

def Event.Ends (k : Kind) (fd : Int) : Event κ δ → Prop
  | .op operation => operation.Ends k fd
  | _ => False

-- A call goes to a handler registered before the pass, once, and to none deleted or disabled in it.
def DispatchedOnce (start : Registry κ δ) (ready : Kind → FdSet) (pass : List (Moment κ δ)) : Prop :=
  ∀ m earlier, m :: earlier <:+ pass → ∀ k fd callback data, m.event = .called k fd callback data →
    ready k fd = true ∧
    (∃ event, start fd = some event ∧ event.callback k = some callback ∧ event.data k = data) ∧
    ∀ e ∈ earlier, ¬ e.event.Calls k fd ∧ ¬ e.event.Ends k fd

section Progress

variable {w u v : World κ δ} {more rest : List (Moment κ δ)}

-- What happens between two moments of a pass, as far as the descriptors still waited for go.
structure Progress (fdSetsize : Nat) (w v : World κ δ) (more : List (Moment κ δ)) : Prop where
  history : v.history = more ++ w.history
  sound : v.Sound fdSetsize
  stays : ∀ k fd, v.handlers.currentSet k fd = true → Stays k fd w.handlers v.handlers ∧
    registry v.history fd = registry w.history fd ∧ ∀ e ∈ more, ¬ e.event.Ends k fd

theorem Progress.refl (h : w.Sound fdSetsize) : Progress fdSetsize w w [] := by
  refine ⟨rfl,h,fun k fd hk => ?_⟩
  obtain ⟨i,hi⟩ := h.now.place hk
  exact ⟨⟨hk,i,i,hi,hi,le_refl i,rfl⟩,rfl,by simp⟩

theorem Progress.trans (h : Progress fdSetsize w u rest) (h' : Progress fdSetsize u v more) :
    Progress fdSetsize w v (more ++ rest) := by
  refine ⟨by rw [h'.history,h.history,List.append_assoc],h'.sound,fun k fd hk => ?_⟩
  obtain ⟨⟨hu,i,j,hi,hj,hle,hlist⟩,hr,hends⟩ := h'.stays k fd hk
  obtain ⟨⟨hw,i',j',hi',hj',hle',hlist'⟩,hr',hends'⟩ := h.stays k fd hu
  have hij : j' = i := by
    rw [hj'] at hi
    exact Option.some.inj hi
  refine ⟨⟨hw,i',j,hi',hj,by omega,hlist.trans (hij ▸ hlist')⟩,hr.trans hr',fun e he => ?_⟩
  rcases List.mem_append.mp he with he | he
  · exact hends e he
  · exact hends' e he

theorem World.record_progress (h : w.Sound fdSetsize) {event : Event κ δ}
    (hop : ∀ operation, event ≠ .op operation) :
    Progress fdSetsize w (w.record event) [⟨event,w.handlers⟩] := by
  have hregistry : registry (w.record event).history = registry w.history := by
    simp only [World.record,registry]
    cases event with
    | op operation => exact absurd rfl (hop operation)
    | _ => rfl
  have hnow : Consistent fdSetsize (registry (w.record event).history) w.handlers := by
    rw [hregistry]
    exact h.now
  refine ⟨rfl,⟨hnow,fun m past hm => ?_⟩,fun k fd hk => ?_⟩
  · rcases List.suffix_cons_iff.mp hm with heq | hm
    · injection heq with hm hpast
      rw [hm,hpast]
      exact hnow
    · exact h.always m past hm
  · obtain ⟨i,hi⟩ := h.now.place hk
    refine ⟨⟨hk,i,i,hi,hi,le_refl i,rfl⟩,by rw [hregistry],fun e he => ?_⟩
    rw [List.mem_singleton.mp he]
    cases event with
    | op operation => exact absurd rfl (hop operation)
    | _ => exact id

theorem World.perform_progress (h : w.Sound fdSetsize) {op : Op κ δ} (hop : op.Valid fdSetsize) :
    Progress fdSetsize w (w.perform fdSetsize op) [⟨.op op,op.apply fdSetsize w.handlers⟩] := by
  have hnow := Op.apply_consistent h.now hop
  refine ⟨rfl,⟨hnow,fun m past hm => ?_⟩,fun k fd hk => ?_⟩
  · rcases List.suffix_cons_iff.mp hm with heq | hm
    · injection heq with hm hpast
      rw [hm,hpast]
      exact hnow
    · exact h.always m past hm
  · obtain ⟨hends,hr,hstays⟩ := Op.apply_stays h.now hop hk
    refine ⟨hstays,hr,fun e he => ?_⟩
    rw [List.mem_singleton.mp he]
    exact hends

def OnlyOps (more : List (Moment κ δ)) : Prop := ∀ e ∈ more, ∃ operation, e.event = .op operation

theorem performAll_progress (h : w.Sound fdSetsize) {ops : List (Op κ δ)}
    (hops : ∀ op ∈ ops, op.Valid fdSetsize) : ∃ more, OnlyOps more ∧
      Progress fdSetsize w (ops.foldl (World.perform fdSetsize) w) more := by
  induction ops generalizing w with
  | nil => exact ⟨[],by simp [OnlyOps],.refl h⟩
  | cons op ops ih =>
    rw [List.forall_mem_cons] at hops
    have hfirst := World.perform_progress h hops.1
    obtain ⟨more,honly,hrest⟩ := ih hfirst.sound hops.2
    refine ⟨more ++ [_],?_,hfirst.trans hrest⟩
    intro e he
    rcases List.mem_append.mp he with he | he
    · exact honly e he
    · rw [List.mem_singleton.mp he]
      exact ⟨op,rfl⟩

theorem invoke_progress (h : w.Sound fdSetsize) {event : Event κ δ}
    (hop : ∀ operation, event ≠ .op operation) : ∃ more, OnlyOps more ∧
      Progress fdSetsize w (invoke env event w) (more ++ [⟨event,w.handlers⟩]) := by
  have hrecord := World.record_progress h hop
  obtain ⟨more,honly,hops⟩ := performAll_progress hrecord.sound
    (env.respond_valid (w.record event).history)
  exact ⟨more,honly,hrecord.trans hops⟩

end Progress

section Pass

variable {w v : World κ δ} {more pass : List (Moment κ δ)} {k : Kind} {current : EventFd κ δ}
  {start : Registry κ δ} {ready : Kind → FdSet}

-- Either nothing happens or one call is made, followed by what the callback does.
def OneCall (k : Kind) (current : EventFd κ δ) (w : World κ δ) (more : List (Moment κ δ)) : Prop :=
  ∃ ops callback, OnlyOps ops ∧ current.callback k = some callback ∧
    more = ops ++ [⟨.called k current.fd callback (current.data k),w.handlers⟩]

variable (k current) in
theorem dispatchTo_progress (h : w.Sound fdSetsize)
    (hcurrent : w.handlers.currentSet k current.fd = true →
      registry w.history current.fd = some current) :
    ∃ v more, dispatchTo env k current w = .ok v ∧ Progress fdSetsize w v more ∧
      ((v = w ∧ more = []) ∨
        (w.handlers.currentSet k current.fd = true ∧ OneCall k current w more)) := by
  cases hk : w.handlers.currentSet k current.fd with
  | false => exact ⟨w,[],by rw [dispatchTo,hk]; rfl,.refl h,.inl ⟨rfl,rfl⟩⟩
  | true =>
    obtain ⟨event,hr,hcallback⟩ := h.now.current k current.fd hk
    rw [hcurrent hk] at hr
    injection hr with hr
    rw [← hr] at hcallback
    obtain ⟨callback,hcallback⟩ := Option.ne_none_iff_exists'.mp hcallback
    have hcalled : ∀ operation, Event.called k current.fd callback (current.data k) ≠ .op operation := by
      simp
    obtain ⟨ops,honly,hprogress⟩ := invoke_progress env h hcalled
    refine ⟨_,_,?_,hprogress,.inr ⟨rfl,ops,callback,honly,hcallback,rfl⟩⟩
    rw [dispatchTo,hk,hcallback]
    rfl

theorem OneCall.calls (h : OneCall k current w more) {e : Moment κ δ} (he : e ∈ more) {k' : Kind}
    {fd : Int} (hcalls : e.event.Calls k' fd) : k' = k ∧ fd = current.fd := by
  obtain ⟨ops,callback,honly,-,rfl⟩ := h
  rcases List.mem_append.mp he with he | he
  · obtain ⟨operation,hop⟩ := honly e he
    rw [hop] at hcalls
    exact hcalls.elim
  · rw [List.mem_singleton.mp he] at hcalls
    exact ⟨hcalls.1.symm,hcalls.2.symm⟩

theorem DispatchedOnce.ops (h : DispatchedOnce start ready pass) {ops : List (Moment κ δ)}
    (honly : OnlyOps ops) : DispatchedOnce start ready (ops ++ pass) := by
  induction ops with
  | nil => exact h
  | cons op ops ih =>
    rw [OnlyOps,List.forall_mem_cons] at honly
    obtain ⟨⟨operation,hop⟩,honly⟩ := honly
    intro m earlier hm k fd callback data hcalled
    rcases List.suffix_cons_iff.mp hm with heq | hm
    · injection heq with heq
      rw [heq,hop] at hcalled
      simp at hcalled
    · exact ih honly m earlier hm k fd callback data hcalled

theorem DispatchedOnce.call (h : DispatchedOnce start ready pass) (hcall : OneCall k current w more)
    (hready : ready k current.fd = true) (hstart : start current.fd = some current)
    (hpass : ∀ e ∈ pass, ¬ e.event.Calls k current.fd ∧ ¬ e.event.Ends k current.fd) :
    DispatchedOnce start ready (more ++ pass) := by
  obtain ⟨ops,callback,honly,hcallback,rfl⟩ := hcall
  rw [List.append_assoc,List.singleton_append]
  refine DispatchedOnce.ops ?_ honly
  intro m earlier hm k' fd callback' data hcalled
  rcases List.suffix_cons_iff.mp hm with heq | hm
  · injection heq with heq hearlier
    rw [heq] at hcalled
    injection hcalled with hkind hfd hcb hdata
    rw [hearlier,← hkind,← hfd,← hcb,← hdata]
    exact ⟨hready,⟨current,hstart,hcallback,rfl⟩,hpass⟩
  · exact h m earlier hm k' fd callback' data hcalled

-- The invariant of the loop over the entries, at the place itr of the list.
structure Dispatching (fdSetsize : Nat) (start : World κ δ) (ready : Kind → FdSet) (w : World κ δ)
    (itr : Nat) (pass : List (Moment κ δ)) : Prop where
  history : w.history = pass ++ start.history
  sound : w.Sound fdSetsize
  once : DispatchedOnce (registry start.history) ready pass
  waiting : ∀ k fd, w.handlers.currentSet k fd = true → ready k fd = true ∧
    registry w.history fd = registry start.history fd ∧ ∀ e ∈ pass, ¬ e.event.Ends k fd
  ahead : ∀ k fd i, w.handlers.currentSet k fd = true → w.handlers.eventFdSet fd = some i → itr ≤ i →
    ∀ k', ∀ e ∈ pass, ¬ e.event.Calls k' fd

def waitedFor (s : Handlers κ δ) (itr : Nat) : Set Int :=
  {fd | ∃ k i, s.currentSet k fd = true ∧ s.eventFdSet fd = some i ∧ itr ≤ i}

noncomputable def remaining (fdSetsize : Nat) (p : World κ δ × Nat) : Nat :=
  (waitedFor p.1.handlers p.2).ncard * (fdSetsize + 1) + (fdSetsize - p.2)

theorem waitedFor_finite (h : w.Sound fdSetsize) (itr : Nat) : (waitedFor w.handlers itr).Finite := by
  refine (Set.finite_Ico (0 : Int) fdSetsize).subset ?_
  rintro fd ⟨k,i,hk,-,-⟩
  obtain ⟨event,hr,-⟩ := h.now.current k fd hk
  exact (h.now.own fd event hr).2

-- The place after one turn: the next one, unless another entry has come to this one.
def nextPlace (current : EventFd κ δ) (s : Handlers κ δ) (itr : Nat) : Nat :=
  if current.fd = (s.eventList itr).fd then itr + 1 else itr

variable (current) in
theorem le_nextPlace (s : Handlers κ δ) (itr : Nat) : itr ≤ nextPlace current s itr := by
  rw [nextPlace]
  split <;> omega

-- What is still to come after a turn was to come before it, and is not the entry of the turn.
theorem Progress.ahead (h : w.Sound fdSetsize) (hp : Progress fdSetsize w v more) {itr : Nat}
    (hitr : itr < w.handlers.eventLast) {k : Kind} {fd : Int} {i : Nat}
    (hk : v.handlers.currentSet k fd = true) (hi : v.handlers.eventFdSet fd = some i)
    (hle : nextPlace (w.handlers.eventList itr) v.handlers itr ≤ i) :
    fd ≠ (w.handlers.eventList itr).fd ∧
      ∃ j, w.handlers.currentSet k fd = true ∧ w.handlers.eventFdSet fd = some j ∧ itr ≤ j := by
  obtain ⟨⟨hw,j,i',hj,hi',hij,-⟩,-,-⟩ := hp.stays k fd hk
  have heq : i' = i := Option.some.inj (hi'.symm.trans hi)
  have hplace := le_nextPlace (w.handlers.eventList itr) v.handlers itr
  refine ⟨?_,j,hw,hj,by omega⟩
  rintro rfl
  have hslot := h.now.slot itr hitr
  have hji : j = itr := Option.some.inj (hj.symm.trans hslot)
  have hiitr : i = itr := by omega
  have hown := hp.sound.now.fd_of_pointer hi
  rw [hiitr] at hown hle
  rw [nextPlace,if_pos hown.symm] at hle
  omega

theorem remaining_lt (h : w.Sound fdSetsize) (hp : Progress fdSetsize w v more) {itr : Nat}
    (hitr : itr < w.handlers.eventLast)
    (hsame : (∀ k, w.handlers.currentSet k (w.handlers.eventList itr).fd = false) → v = w) :
    remaining fdSetsize (v,nextPlace (w.handlers.eventList itr) v.handlers itr) <
      remaining fdSetsize (w,itr) := by
  have hcapacity := h.now.capacity
  have hsubset : waitedFor v.handlers (nextPlace (w.handlers.eventList itr) v.handlers itr) ⊆
      waitedFor w.handlers itr := by
    rintro fd ⟨k,i,hk,hi,hle⟩
    obtain ⟨-,j,hw,hj,hle'⟩ := hp.ahead h hitr hk hi hle
    exact ⟨k,j,hw,hj,hle'⟩
  have hcard := Set.ncard_le_ncard hsubset (waitedFor_finite h itr)
  simp only [remaining]
  by_cases hnext : (w.handlers.eventList itr).fd = (v.handlers.eventList itr).fd
  · rw [nextPlace,if_pos hnext] at hcard ⊢
    have hmul := Nat.mul_le_mul_right (fdSetsize + 1) hcard
    omega
  · -- Only a callback can have changed the entry, so its descriptor is no longer waited for here.
    have hwaited : (w.handlers.eventList itr).fd ∈ waitedFor w.handlers itr := by
      by_contra hno
      refine hnext (congrArg (fun u : World κ δ => (u.handlers.eventList itr).fd) (hsame fun k => ?_)).symm
      cases hk : w.handlers.currentSet k (w.handlers.eventList itr).fd with
      | false => rfl
      | true => exact absurd ⟨k,itr,hk,h.now.slot itr hitr,le_refl itr⟩ hno
    have hgone : (w.handlers.eventList itr).fd ∉
        waitedFor v.handlers (nextPlace (w.handlers.eventList itr) v.handlers itr) := by
      rintro ⟨k,i,hk,hi,hle⟩
      exact (hp.ahead h hitr hk hi hle).1 rfl
    have hlt := Set.ncard_lt_ncard ⟨hsubset,fun hback => hgone (hback hwaited)⟩ (waitedFor_finite h itr)
    rw [nextPlace,if_neg hnext] at hlt ⊢
    have hmul := Nat.mul_le_mul_right (fdSetsize + 1) (Nat.succ_le_of_lt hlt)
    rw [Nat.succ_mul] at hmul
    omega

theorem dispatchEvent_step {w₀ : World κ δ} {itr : Nat}
    (d : Dispatching fdSetsize w₀ ready w itr pass) (hitr : itr < w.handlers.eventLast) :
    ∃ v itr' pass', dispatchEvent env (w,itr) = .ok (v,itr') ∧
      Dispatching fdSetsize w₀ ready v itr' pass' ∧
      remaining fdSetsize (v,itr') < remaining fdSetsize (w,itr) := by
  have hslot := d.sound.now.slot itr hitr
  have hcurrent := (d.sound.now.pointer _ itr hslot).2
  obtain ⟨u,first,hwrite,hp,hfirst⟩ :=
    dispatchTo_progress env .write (w.handlers.eventList itr) d.sound fun _ => hcurrent
  have hstill : ∀ k, u.handlers.currentSet k (w.handlers.eventList itr).fd = true →
      registry u.history (w.handlers.eventList itr).fd = some (w.handlers.eventList itr) := fun k hk => by
    rw [(hp.stays k _ hk).2.1]
    exact hcurrent
  obtain ⟨v,second,hread,hp',hsecond⟩ :=
    dispatchTo_progress env .read (w.handlers.eventList itr) hp.sound (hstill .read)
  have hall := hp.trans hp'
  have hfirstCalls : ∀ e ∈ first, ∀ k fd, e.event.Calls k fd →
      k = .write ∧ fd = (w.handlers.eventList itr).fd := by
    intro e he k fd hcalls
    rcases hfirst with ⟨-,rfl⟩ | ⟨-,hcall⟩
    · simp at he
    · exact hcall.calls he hcalls
  have hsecondCalls : ∀ e ∈ second, ∀ k fd, e.event.Calls k fd →
      k = .read ∧ fd = (w.handlers.eventList itr).fd := by
    intro e he k fd hcalls
    rcases hsecond with ⟨-,rfl⟩ | ⟨-,hcall⟩
    · simp at he
    · exact hcall.calls he hcalls
  have hpass : ∀ k, w.handlers.currentSet k (w.handlers.eventList itr).fd = true → ∀ e ∈ pass,
      ¬ e.event.Calls k (w.handlers.eventList itr).fd ∧ ¬ e.event.Ends k (w.handlers.eventList itr).fd :=
    fun k hk e he => ⟨d.ahead k _ itr hk hslot (le_refl itr) k e he,(d.waiting k _ hk).2.2 e he⟩
  have hstart : ∀ k, w.handlers.currentSet k (w.handlers.eventList itr).fd = true →
      registry w₀.history (w.handlers.eventList itr).fd = some (w.handlers.eventList itr) :=
    fun k hk => (d.waiting k _ hk).2.1.symm.trans hcurrent
  have honce : DispatchedOnce (registry w₀.history) ready (first ++ pass) := by
    rcases hfirst with ⟨-,rfl⟩ | ⟨hk,hcall⟩
    · exact d.once
    · exact d.once.call hcall (d.waiting _ _ hk).1 (hstart _ hk) (hpass _ hk)
  have honce' : DispatchedOnce (registry w₀.history) ready (second ++ (first ++ pass)) := by
    rcases hsecond with ⟨-,rfl⟩ | ⟨hk,hcall⟩
    · exact honce
    · obtain ⟨⟨hw,-⟩,-,hends⟩ := hp.stays _ _ hk
      refine honce.call hcall (d.waiting _ _ hw).1 (hstart _ hw) fun e he => ?_
      rcases List.mem_append.mp he with he | he
      · exact ⟨fun hcalls => by simpa using (hfirstCalls e he _ _ hcalls).1,hends e he⟩
      · exact hpass _ hw e he
  refine ⟨v,nextPlace (w.handlers.eventList itr) v.handlers itr,second ++ (first ++ pass),?_,?_,?_⟩
  · rw [dispatchEvent,hwrite,ok_bind,hread]
    rfl
  · refine ⟨?_,hall.sound,honce',fun k fd hk => ?_,fun k fd i hk hi hle k' e he hcalls => ?_⟩
    · rw [hall.history,d.history]
      simp only [List.append_assoc]
    · obtain ⟨⟨hw,-⟩,hr,hends⟩ := hall.stays k fd hk
      obtain ⟨hready,hr',hends'⟩ := d.waiting k fd hw
      refine ⟨hready,hr.trans hr',fun e he => ?_⟩
      rw [← List.append_assoc] at he
      rcases List.mem_append.mp he with he | he
      · exact hends e he
      · exact hends' e he
    · obtain ⟨hne,j,hw,hj,hle'⟩ := hall.ahead d.sound hitr hk hi hle
      rcases List.mem_append.mp he with he | he
      · exact hne (hsecondCalls e he _ _ hcalls).2
      · rcases List.mem_append.mp he with he | he
        · exact hne (hfirstCalls e he _ _ hcalls).2
        · exact d.ahead k fd j hw hj hle' k' e he hcalls
  · refine remaining_lt d.sound hall hitr fun hnone => ?_
    rcases hfirst with ⟨rfl,-⟩ | ⟨hk,-⟩
    · rcases hsecond with ⟨rfl,-⟩ | ⟨hk,-⟩
      · rfl
      · rw [hnone] at hk
        simp at hk
    · rw [hnone] at hk
      simp at hk

theorem World.select_sound (h : w.Sound fdSetsize) {sets : Kind → FdSet}
    (hsets : ∀ k fd, sets k fd = true → w.handlers.eventSet k fd = true) :
    (w.select sets).Sound fdSetsize :=
  ⟨{ h.now with current := fun k fd hk => h.now.interest k fd (hsets k fd hk) },h.always⟩

theorem callExternal_sound (h : w.Sound fdSetsize) : (callExternal env w).Sound fdSetsize := by
  rw [callExternal]
  split
  · exact h
  · rename_i callback _
    have hcleared : World.Sound fdSetsize
        { w with handlers := { w.handlers with externalCallback := none } } :=
      ⟨{ h.now with },h.always⟩
    have hevent : ∀ operation : Op κ δ, Event.calledExternal callback ≠ .op operation := by simp
    obtain ⟨more,-,hprogress⟩ := invoke_progress env hcleared hevent
    exact hprogress.sound

theorem dispatch_pass (h : w.Sound fdSetsize)
    (hready : ∀ k fd, ready k fd = true → w.handlers.eventSet k fd = true) :
    ∃ p pass, Yields (fun n => whileLoop (fun p : World κ δ × Nat => decide (p.2 < p.1.handlers.eventLast))
        (dispatchEvent env) n (w.select ready,0)) (.ok p) ∧ p.1.Sound fdSetsize ∧
      p.1.history = pass ++ w.history ∧ DispatchedOnce (registry w.history) ready pass := by
  have hselected := World.select_sound h hready
  have hstart : Dispatching fdSetsize w ready (w.select ready) 0 [] :=
    ⟨rfl,hselected,fun m earlier hm => by simp at hm,fun k fd hk => ⟨hk,rfl,by simp⟩,by simp⟩
  have hstep : ∀ p : World κ δ × Nat, (∃ pass, Dispatching fdSetsize w ready p.1 p.2 pass) →
      decide (p.2 < p.1.handlers.eventLast) = true → ∃ q, dispatchEvent env p = .ok q ∧
        (∃ pass, Dispatching fdSetsize w ready q.1 q.2 pass) ∧
        remaining fdSetsize q < remaining fdSetsize p := by
    rintro p ⟨pass,d⟩ hp
    obtain ⟨v,itr,pass',hrun,d',hlt⟩ := dispatchEvent_step env d (by simpa using hp)
    exact ⟨(v,itr),hrun,⟨pass',d'⟩,hlt⟩
  obtain ⟨p,hrun,⟨pass,d⟩,-⟩ := whileLoop_measured (s := (w.select ready,0)) (remaining fdSetsize)
    hstep ⟨[],hstart⟩ (Nat.lt_succ_self _)
  exact ⟨p,pass,⟨by simp,_,hrun⟩,d.sound,d.history,d.once⟩

end Pass

theorem settled_runEventHandlerOnce (w : World κ δ) (timeoutUsec : Int) :
    Settled (fun n => runEventHandlerOnce env n w timeoutUsec) := by
  simp only [runEventHandlerOnce]
  split
  · exact settled_const _
  · exact settled_const _
  · exact settled_bind (settled_whileLoop (fun s => settled_const (dispatchEvent env s)) _)
      (fun _ => settled_const _)

-- What select is given, and what it returns in a pass.
def selection (w : World κ δ) (timeoutUsec : Int) : Selection :=
  env.select w.history w.handlers.fdSetSize w.handlers.eventSet
    (timeoutUsec.tdiv 1000000,timeoutUsec.tmod 1000000)

theorem runEventHandlerOnce_failed {w : World κ δ} {timeoutUsec : Int} {interrupted : Bool}
    (h : selection env (callExternal env w) timeoutUsec = .failed interrupted) (n : Nat) :
    runEventHandlerOnce env n w timeoutUsec = .ok (interrupted,
      (callExternal env w).select (callExternal env w).handlers.eventSet) := by
  simp only [selection] at h
  simp only [runEventHandlerOnce,World.select,h]
  rfl

theorem runEventHandlerOnce_timedOut {w : World κ δ} {timeoutUsec : Int} {sets : Kind → FdSet}
    (h : selection env (callExternal env w) timeoutUsec = .ready 0 sets) (n : Nat) :
    runEventHandlerOnce env n w timeoutUsec = .ok (true,(callExternal env w).select sets) := by
  simp only [selection] at h
  simp only [runEventHandlerOnce,World.select,h]
  rfl

theorem runEventHandlerOnce_ready {w : World κ δ} {timeoutUsec : Int} {count : Nat}
    {sets : Kind → FdSet} (h : selection env (callExternal env w) timeoutUsec = .ready (count + 1) sets)
    (n : Nat) : runEventHandlerOnce env n w timeoutUsec =
      (whileLoop (fun p : World κ δ × Nat => decide (p.2 < p.1.handlers.eventLast)) (dispatchEvent env) n
        ((callExternal env w).select sets,0)).map fun p => (true,p.1) := by
  simp only [selection] at h
  simp only [runEventHandlerOnce,World.select,h]
  rfl

theorem runEventHandlerOnce_yields {w : World κ δ} (h : w.Sound fdSetsize) (timeoutUsec : Int) :
    ∃ result v pass, Yields (fun n => runEventHandlerOnce env n w timeoutUsec) (.ok (result,v)) ∧
      v.Sound fdSetsize ∧ v.history = pass ++ (callExternal env w).history ∧
      (pass = [] ∨ ∃ count ready, selection env (callExternal env w) timeoutUsec = .ready count ready ∧
        DispatchedOnce (registry (callExternal env w).history) ready pass) := by
  have hstart := callExternal_sound env h
  have hcopied := World.select_sound hstart fun k fd hk => hk
  cases hselect : selection env (callExternal env w) timeoutUsec with
  | failed interrupted =>
    refine ⟨interrupted,_,[],⟨by simp,0,?_⟩,hcopied,rfl,.inl rfl⟩
    exact runEventHandlerOnce_failed env hselect 0
  | ready count ready =>
    have hready : ∀ k fd, ready k fd = true → (callExternal env w).handlers.eventSet k fd = true :=
      env.select_subset _ _ _ _ count ready hselect
    cases count with
    | zero =>
      refine ⟨true,_,[],⟨by simp,0,?_⟩,World.select_sound hstart hready,rfl,.inl rfl⟩
      exact runEventHandlerOnce_timedOut env hselect 0
    | succ count =>
      obtain ⟨p,pass,⟨-,n,hrun⟩,hsound,hhistory,honce⟩ := dispatch_pass env hstart hready
      refine ⟨true,p.1,pass,⟨by simp,n,?_⟩,hsound,hhistory,.inr ⟨count + 1,ready,rfl,honce⟩⟩
      simp only at hrun ⊢
      rw [runEventHandlerOnce_ready env hselect n,hrun]
      rfl

theorem Reachable.sound {w : World κ δ} (h : Reachable env w) : w.Sound fdSetsize := by
  induction h with
  | init => exact ⟨initEventHandler_consistent fdSetsize,by simp⟩
  | op _ hop ih => exact (World.perform_progress ih hop).sound
  | @once w v fuel timeoutUsec result _ hrun ih =>
    obtain ⟨result',u,-,hyields,hsound,-⟩ := runEventHandlerOnce_yields env ih timeoutUsec
    have hsame := (settled_runEventHandlerOnce env w timeoutUsec).yields_unique hyields
      ⟨by simp,fuel,hrun⟩
    injection hsame with hsame
    injection hsame with _ hv
    exact hv ▸ hsound

theorem event_handler_run {w : World κ δ} (h : Reachable env w) (timeoutUsec : Int) :
    Consistent fdSetsize (registry w.history) w.handlers ∧
    (∀ m past, m :: past <:+ w.history → Consistent fdSetsize (registry (m :: past)) m.handlers) ∧
    ∃ result v pass n, (∀ m, n ≤ m → runEventHandlerOnce env m w timeoutUsec = .ok (result,v)) ∧
      v.history = pass ++ (callExternal env w).history ∧
      (pass = [] ∨ ∃ count ready, selection env (callExternal env w) timeoutUsec = .ready count ready ∧
        DispatchedOnce (registry (callExternal env w).history) ready pass) := by
  obtain ⟨hnow,halways⟩ := h.sound
  obtain ⟨result,v,pass,hyields,-,hhistory,hpass⟩ :=
    runEventHandlerOnce_yields env ⟨hnow,halways⟩ timeoutUsec
  obtain ⟨n,hn⟩ := (settled_runEventHandlerOnce env w timeoutUsec).eventually hyields
  exact ⟨hnow,halways,result,v,pass,n,hn,hhistory,hpass⟩

-- A callback that closes its descriptor and gets the same one again.
def reopening : Environment Nat Nat 1024 where
  respond := fun _ => [.deleteFdHandler 3,.setFdHandler ⟨3,fun _ => some 1,fun _ => none⟩]
  respond_valid := by simp [Op.Valid,ValidFd]
  select := fun _ _ sets _ => .ready 1 sets
  select_subset := fun _ _ _ _ _ _ h k fd hk => by
    injection h with _ h
    exact h ▸ hk

def oneReadable : World Nat Nat :=
  (World.perform 1024 ⟨initEventHandler Nat Nat,[]⟩
    (.setFdHandler ⟨3,fun _ => some 1,fun _ => none⟩)).perform 1024 (.setReadable 3 true)

theorem event_handler_run_reopening :
    Consistent 1024 (registry oneReadable.history) oneReadable.handlers ∧
    (∀ m past, m :: past <:+ oneReadable.history → Consistent 1024 (registry (m :: past)) m.handlers) ∧
    ∃ result v pass n, (∀ m, n ≤ m → runEventHandlerOnce reopening m oneReadable 0 = .ok (result,v)) ∧
      v.history = pass ++ (callExternal reopening oneReadable).history ∧
      (pass = [] ∨ ∃ count ready,
        selection reopening (callExternal reopening oneReadable) 0 = .ready count ready ∧
        DispatchedOnce (registry (callExternal reopening oneReadable).history) ready pass) :=
  event_handler_run reopening
    (.op (.op .init (by simp [Op.Valid,ValidFd])) (by simp [Op.Valid,ValidFd])) 0

end Trema.EventHandler
