import Mathlib.Data.Finset.Card
import Mathlib.Data.Int.Interval
import Mathlib.Logic.Function.Basic

namespace Trema.EventHandler

inductive Kind where
  | read
  | write
deriving DecidableEq, Repr

abbrev FdSet := Int → Bool

def fdSet (set : FdSet) (fd : Int) : FdSet := Function.update set fd true
def fdClr (set : FdSet) (fd : Int) : FdSet := Function.update set fd false

structure EventFd (κ δ : Type) where
  fd : Int
  callback : Kind → Option κ
  data : Kind → Option δ

-- A slot after its entry has been moved away or deleted.
def vacant (κ δ : Type) : EventFd κ δ := ⟨-1,fun _ => none,fun _ => none⟩

-- Pointers into the list are indices. The sets for reading and for writing are kept by kind.
structure Handlers (κ δ : Type) where
  eventList : Nat → EventFd κ δ
  eventLast : Nat
  eventFdSet : Int → Option Nat
  eventSet : Kind → FdSet
  currentSet : Kind → FdSet
  fdSetSize : Int
  externalCallback : Option κ

variable {κ δ : Type} (fdSetsize : Nat)

def initEventHandler (κ δ : Type) : Handlers κ δ where
  eventList := fun _ => ⟨0,fun _ => none,fun _ => none⟩
  eventLast := 0
  eventFdSet := fun _ => none
  eventSet := fun _ _ => false
  currentSet := fun _ _ => false
  fdSetSize := 0
  externalCallback := none

def setFdHandler (s : Handlers κ δ) (event : EventFd κ δ) : Handlers κ δ :=
  if s.eventFdSet event.fd ≠ none then s
  else if event.fd < 0 ∨ fdSetsize ≤ event.fd then s
  else if fdSetsize ≤ s.eventLast then s
  else
    { s with
      eventList := Function.update s.eventList s.eventLast event
      eventLast := s.eventLast + 1
      eventFdSet := Function.update s.eventFdSet event.fd (some s.eventLast)
      fdSetSize := if s.fdSetSize ≤ event.fd then event.fd + 1 else s.fdSetSize }

def findEvent (s : Handlers κ δ) (fd : Int) : Nat :=
  (List.range s.eventLast).findIdx fun i => (s.eventList i).fd = fd

-- The last descriptor below n that has a handler, or -1.
def lastActive (eventFdSet : Int → Option Nat) : Nat → Int
  | 0 => -1
  | n + 1 => if eventFdSet n ≠ none then n else lastActive eventFdSet n

def deleteFdHandler (s : Handlers κ δ) (fd : Int) : Handlers κ δ :=
  let event := findEvent s fd
  if s.eventLast ≤ event ∨ s.eventFdSet fd = none then s
  else
    let last := s.eventLast - 1
    let moved := s.eventList last
    let cleared := Function.update s.eventFdSet fd none
    let eventFdSet := if event ≠ last then Function.update cleared moved.fd (some event) else cleared
    let eventList := if event ≠ last then Function.update s.eventList event moved else s.eventList
    { s with
      eventList := Function.update eventList last (vacant κ δ)
      eventLast := last
      eventFdSet := eventFdSet
      eventSet := fun k => fdClr (s.eventSet k) fd
      currentSet := fun k => fdClr (s.currentSet k) fd
      fdSetSize := if fd = s.fdSetSize - 1 then lastActive eventFdSet (s.fdSetSize - 1).toNat + 1
        else s.fdSetSize }

def callbackAt (s : Handlers κ δ) (k : Kind) (fd : Int) : Option κ :=
  (s.eventFdSet fd).bind fun i => (s.eventList i).callback k

def setNotified (k : Kind) (s : Handlers κ δ) (fd : Int) (state : Bool) : Handlers κ δ :=
  if fd < 0 ∨ fdSetsize ≤ fd then s
  else if (callbackAt s k fd).isNone then s
  else if state then { s with eventSet := Function.update s.eventSet k (fdSet (s.eventSet k) fd) }
  else
    { s with
      eventSet := Function.update s.eventSet k (fdClr (s.eventSet k) fd)
      currentSet := Function.update s.currentSet k (fdClr (s.currentSet k) fd) }

def setReadable : Handlers κ δ → Int → Bool → Handlers κ δ := setNotified fdSetsize .read
def setWritable : Handlers κ δ → Int → Bool → Handlers κ δ := setNotified fdSetsize .write

def setExternalCallback (s : Handlers κ δ) (callback : κ) : Handlers κ δ :=
  if s.externalCallback ≠ none then s else { s with externalCallback := some callback }

inductive Op (κ δ : Type) where
  | setFdHandler (event : EventFd κ δ)
  | deleteFdHandler (fd : Int)
  | setReadable (fd : Int) (state : Bool)
  | setWritable (fd : Int) (state : Bool)
  | setExternalCallback (callback : κ)

def Op.apply (s : Handlers κ δ) : Op κ δ → Handlers κ δ
  | .setFdHandler event => EventHandler.setFdHandler fdSetsize s event
  | .deleteFdHandler fd => EventHandler.deleteFdHandler s fd
  | .setReadable fd state => EventHandler.setReadable fdSetsize s fd state
  | .setWritable fd state => EventHandler.setWritable fdSetsize s fd state
  | .setExternalCallback callback => EventHandler.setExternalCallback s callback

def ValidFd (fd : Int) : Prop := 0 ≤ fd ∧ fd < fdSetsize

def Op.Valid : Op κ δ → Prop
  | .setFdHandler event => ValidFd fdSetsize event.fd
  | .deleteFdHandler fd => ValidFd fdSetsize fd
  | .setReadable fd _ => ValidFd fdSetsize fd
  | .setWritable fd _ => ValidFd fdSetsize fd
  | .setExternalCallback _ => True

-- What the operations are for: a descriptor has the handler it was given last, until it is deleted.
abbrev Registry (κ δ : Type) := Int → Option (EventFd κ δ)

def Op.register (registry : Registry κ δ) : Op κ δ → Registry κ δ
  | .setFdHandler event =>
      if registry event.fd = none then Function.update registry event.fd (some event) else registry
  | .deleteFdHandler fd => Function.update registry fd none
  | _ => registry

structure Consistent (registry : Registry κ δ) (s : Handlers κ δ) : Prop where
  capacity : s.eventLast ≤ fdSetsize
  slot : ∀ i, i < s.eventLast → s.eventFdSet (s.eventList i).fd = some i
  pointer : ∀ fd i, s.eventFdSet fd = some i → i < s.eventLast ∧ registry fd = some (s.eventList i)
  null : ∀ fd, s.eventFdSet fd = none → registry fd = none
  own : ∀ fd event, registry fd = some event → event.fd = fd ∧ ValidFd fdSetsize fd
  above : ∀ fd, registry fd ≠ none → fd < s.fdSetSize
  largest : s.fdSetSize = 0 ∨ 0 < s.fdSetSize ∧ registry (s.fdSetSize - 1) ≠ none
  interest : ∀ k fd, s.eventSet k fd = true → ∃ event, registry fd = some event ∧ event.callback k ≠ none
  current : ∀ k fd, s.currentSet k fd = true → ∃ event, registry fd = some event ∧ event.callback k ≠ none

theorem initEventHandler_consistent :
    Consistent fdSetsize (fun _ => none) (initEventHandler κ δ) where
  capacity := Nat.zero_le _
  slot := fun i hi => absurd hi (Nat.not_lt_zero i)
  pointer := fun fd i h => by simp [initEventHandler] at h
  null := fun _ _ => rfl
  own := fun fd event h => by simp at h
  above := fun fd h => absurd rfl h
  largest := .inl rfl
  interest := fun k fd h => by simp [initEventHandler] at h
  current := fun k fd h => by simp [initEventHandler] at h

section Consistency

variable {fdSetsize : Nat} {registry : Registry κ δ} {s : Handlers κ δ}

theorem Consistent.registered_iff (h : Consistent fdSetsize registry s) (fd : Int) :
    registry fd = none ↔ s.eventFdSet fd = none := by
  refine ⟨fun hr => ?_,h.null fd⟩
  cases hi : s.eventFdSet fd with
  | none => rfl
  | some i =>
    rw [(h.pointer fd i hi).2] at hr
    simp at hr

theorem Consistent.fd_of_pointer (h : Consistent fdSetsize registry s) {fd : Int} {i : Nat}
    (hi : s.eventFdSet fd = some i) : (s.eventList i).fd = fd :=
  (h.own fd _ (h.pointer fd i hi).2).1

theorem Consistent.slot_injective (h : Consistent fdSetsize registry s) {i j : Nat}
    (hi : i < s.eventLast) (hj : j < s.eventLast) (heq : (s.eventList i).fd = (s.eventList j).fd) :
    i = j := by
  have hij := (h.slot i hi).symm.trans (heq ▸ h.slot j hj)
  simpa using hij

theorem Consistent.validSlot (h : Consistent fdSetsize registry s) {i : Nat} (hi : i < s.eventLast) :
    ValidFd fdSetsize (s.eventList i).fd :=
  (h.own _ _ (h.pointer _ i (h.slot i hi)).2).2

-- A free descriptor leaves a free slot.
theorem Consistent.free (h : Consistent fdSetsize registry s) {fd : Int} (hfd : ValidFd fdSetsize fd)
    (hfree : registry fd = none) : s.eventLast < fdSetsize := by
  have hcard : (Finset.range s.eventLast).card ≤ ((Finset.Ico (0 : Int) fdSetsize).erase fd).card := by
    refine Finset.card_le_card_of_injOn (fun i => (s.eventList i).fd) (fun i hi => ?_)
      fun i hi j hj heq => h.slot_injective (by simpa using hi) (by simpa using hj) heq
    have hlt : i < s.eventLast := by simpa using hi
    refine Finset.mem_coe.mpr (Finset.mem_erase.mpr ⟨?_,Finset.mem_Ico.mpr (h.validSlot hlt)⟩)
    intro heq
    have hslot := h.slot i hlt
    simp only at heq
    rw [heq,(h.registered_iff fd).mp hfree] at hslot
    simp at hslot
  rw [Finset.card_range,Finset.card_erase_of_mem (Finset.mem_Ico.mpr hfd),Int.card_Ico] at hcard
  obtain ⟨h0,h1⟩ := hfd
  omega

theorem setFdHandler_active {event : EventFd κ δ} (h : Consistent fdSetsize registry s)
    (hactive : registry event.fd ≠ none) : setFdHandler fdSetsize s event = s :=
  if_pos (fun hnone => hactive (h.null _ hnone))

theorem setFdHandler_free {event : EventFd κ δ} (h : Consistent fdSetsize registry s)
    (hfd : ValidFd fdSetsize event.fd) (hfree : registry event.fd = none) :
    setFdHandler fdSetsize s event =
      { s with
        eventList := Function.update s.eventList s.eventLast event
        eventLast := s.eventLast + 1
        eventFdSet := Function.update s.eventFdSet event.fd (some s.eventLast)
        fdSetSize := if s.fdSetSize ≤ event.fd then event.fd + 1 else s.fdSetSize } := by
  have hlast := h.free hfd hfree
  obtain ⟨h0,h1⟩ := hfd
  rw [setFdHandler,if_neg (not_not.mpr ((h.registered_iff _).mp hfree)),if_neg (by omega),
    if_neg (by omega)]

theorem setFdHandler_consistent {event : EventFd κ δ} (h : Consistent fdSetsize registry s)
    (hfd : ValidFd fdSetsize event.fd) :
    Consistent fdSetsize ((Op.setFdHandler event).register registry)
      (setFdHandler fdSetsize s event) := by
  by_cases hfree : registry event.fd = none
  · have hlast := h.free hfd hfree
    have hregistered : ∀ fd e, registry fd = some e → fd ≠ event.fd := by
      rintro fd e he rfl
      rw [hfree] at he
      simp at he
    have hkept : ∀ i, i < s.eventLast →
        Function.update s.eventList s.eventLast event i = s.eventList i := fun i hi =>
      Function.update_of_ne (by omega) _ _
    have hset : ∀ k fd, (∃ e, registry fd = some e ∧ e.callback k ≠ none) →
        ∃ e, Function.update registry event.fd (some event) fd = some e ∧ e.callback k ≠ none := by
      rintro k fd ⟨e,he,hcallback⟩
      exact ⟨e,by rw [Function.update_of_ne (hregistered fd e he)]; exact he,hcallback⟩
    rw [Op.register,if_pos hfree,setFdHandler_free h hfd hfree]
    constructor
    case capacity => exact hlast
    case slot =>
      intro i hi
      simp only at hi ⊢
      rcases Nat.lt_succ_iff_lt_or_eq.mp hi with hi | rfl
      · have hold := h.pointer _ i (h.slot i hi)
        rw [hkept i hi,Function.update_of_ne (hregistered _ _ hold.2),h.slot i hi]
      · rw [Function.update_self,Function.update_self]
    case pointer =>
      intro fd i hi
      simp only at hi ⊢
      by_cases hfd' : fd = event.fd
      · rw [hfd',Function.update_self] at hi ⊢
        injection hi with hi
        rw [← hi,Function.update_self]
        exact ⟨Nat.lt_succ_self _,rfl⟩
      · rw [Function.update_of_ne hfd'] at hi ⊢
        obtain ⟨hlt,hr⟩ := h.pointer fd i hi
        rw [hkept i hlt]
        exact ⟨Nat.lt_succ_of_lt hlt,hr⟩
    case null =>
      intro fd hnone
      simp only at hnone
      by_cases hfd' : fd = event.fd
      · rw [hfd',Function.update_self] at hnone
        simp at hnone
      · rw [Function.update_of_ne hfd'] at hnone ⊢
        exact h.null fd hnone
    case own =>
      intro fd e he
      by_cases hfd' : fd = event.fd
      · rw [hfd',Function.update_self] at he
        injection he with he
        exact ⟨he ▸ hfd'.symm,hfd' ▸ hfd⟩
      · rw [Function.update_of_ne hfd'] at he
        exact h.own fd e he
    case above =>
      intro fd hne
      simp only
      by_cases hfd' : fd = event.fd
      · split <;> omega
      · rw [Function.update_of_ne hfd'] at hne
        have hlt := h.above fd hne
        split <;> omega
    case largest =>
      simp only
      split
      · refine .inr ⟨by have := hfd.1; omega,?_⟩
        rw [Int.add_sub_cancel,Function.update_self]
        simp
      · rcases h.largest with hzero | ⟨hpos,hne⟩
        · have := hfd.1
          omega
        · refine .inr ⟨hpos,?_⟩
          by_cases hfd' : s.fdSetSize - 1 = event.fd
          · rw [hfd',Function.update_self]
            simp
          · rw [Function.update_of_ne hfd']
            exact hne
    case interest => exact fun k fd hk => hset k fd (h.interest k fd hk)
    case current => exact fun k fd hk => hset k fd (h.current k fd hk)
  · rw [Op.register,if_neg hfree,setFdHandler_active h hfree]
    exact h

theorem findEvent_eq (h : Consistent fdSetsize registry s) {fd : Int} {i : Nat}
    (hi : s.eventFdSet fd = some i) : findEvent s fd = i := by
  have hlt := (h.pointer fd i hi).1
  rw [findEvent,List.findIdx_eq (by simpa using hlt)]
  simp only [List.getElem_range,decide_eq_true_eq,decide_eq_false_iff_not]
  refine ⟨h.fd_of_pointer hi,fun j hj heq => ?_⟩
  have hj' := h.slot j (by omega)
  rw [heq,hi] at hj'
  injection hj' with hj'
  omega

-- The last entry goes to the place of the deleted one.
structure Deleted (s : Handlers κ δ) (fd : Int) (i : Nat) (t : Handlers κ δ) : Prop where
  last : t.eventLast = s.eventLast - 1
  list : ∀ j, j < t.eventLast → t.eventList j =
    if j = i then s.eventList (s.eventLast - 1) else s.eventList j
  pointers : ∀ fd', t.eventFdSet fd' = if fd' = fd then none
    else if fd' = (s.eventList (s.eventLast - 1)).fd then some i else s.eventFdSet fd'
  events : ∀ k, t.eventSet k = fdClr (s.eventSet k) fd
  currents : ∀ k, t.currentSet k = fdClr (s.currentSet k) fd
  size : t.fdSetSize = if fd = s.fdSetSize - 1 then
    lastActive t.eventFdSet (s.fdSetSize - 1).toNat + 1 else s.fdSetSize

theorem deleteFdHandler_inactive {fd : Int} (h : Consistent fdSetsize registry s)
    (hfree : registry fd = none) : deleteFdHandler s fd = s :=
  if_pos (.inr ((h.registered_iff fd).mp hfree))

theorem deleteFdHandler_active (h : Consistent fdSetsize registry s) {fd : Int} {i : Nat}
    (hi : s.eventFdSet fd = some i) : Deleted s fd i (deleteFdHandler s fd) := by
  have hlt := (h.pointer fd i hi).1
  have hfd := h.fd_of_pointer hi
  rw [deleteFdHandler,if_neg (by rw [findEvent_eq h hi,hi]; simpa using hlt),findEvent_eq h hi]
  refine ⟨rfl,fun j hj => ?_,fun fd' => ?_,fun k => rfl,fun k => rfl,rfl⟩
  · simp only at hj ⊢
    rw [Function.update_of_ne (by omega)]
    by_cases hlast : i = s.eventLast - 1
    · rw [if_neg (by omega),if_neg (by omega)]
    · rw [if_pos hlast]
      by_cases hji : j = i
      · rw [hji,Function.update_self,if_pos rfl]
      · rw [Function.update_of_ne hji,if_neg hji]
  · simp only
    by_cases hlast : i = s.eventLast - 1
    · rw [if_neg (not_not.mpr hlast),← hlast,hfd]
      by_cases heq : fd' = fd
      · rw [heq,Function.update_self,if_pos rfl]
      · rw [Function.update_of_ne heq,if_neg heq,if_neg heq]
    · have hmoved : (s.eventList (s.eventLast - 1)).fd ≠ fd := fun heq =>
        hlast (h.slot_injective hlt (by omega) (hfd.trans heq.symm))
      rw [if_pos hlast]
      by_cases heq : fd' = (s.eventList (s.eventLast - 1)).fd
      · rw [heq,Function.update_self,if_neg hmoved,if_pos rfl]
      · rw [Function.update_of_ne heq,if_neg heq]
        by_cases heq' : fd' = fd
        · rw [heq',Function.update_self,if_pos rfl]
        · rw [Function.update_of_ne heq',if_neg heq']

theorem lastActive_spec (eventFdSet : Int → Option Nat) (n : Nat) :
    (∀ fd, lastActive eventFdSet n < fd → fd < n → eventFdSet fd = none) ∧
      (lastActive eventFdSet n = -1 ∨
        0 ≤ lastActive eventFdSet n ∧ eventFdSet (lastActive eventFdSet n) ≠ none) ∧
      lastActive eventFdSet n < n := by
  induction n with
  | zero => exact ⟨fun fd h1 h2 => by simp [lastActive] at h1; omega,.inl rfl,by simp [lastActive]⟩
  | succ n ih =>
    rw [lastActive]
    split
    · rename_i hactive
      exact ⟨fun fd h1 h2 => by omega,.inr ⟨by omega,hactive⟩,by omega⟩
    · rename_i hnone
      obtain ⟨habove,hvalue,hlt⟩ := ih
      refine ⟨fun fd h1 h2 => ?_,hvalue,by omega⟩
      rcases Int.lt_or_eq_of_le (show fd ≤ n by omega) with hfd | rfl
      · exact habove fd h1 hfd
      · exact not_not.mp hnone

theorem Deleted.null {fd : Int} {i : Nat} {t : Handlers κ δ} (h : Consistent fdSetsize registry s)
    (d : Deleted s fd i t) {fd' : Int} (hnone : t.eventFdSet fd' = none) :
    Function.update registry fd none fd' = none := by
  rw [d.pointers] at hnone
  by_cases heq : fd' = fd
  · rw [heq,Function.update_self]
  · rw [if_neg heq] at hnone
    rw [Function.update_of_ne heq]
    split at hnone
    · simp at hnone
    · exact h.null fd' hnone

theorem Deleted.pointer {fd : Int} {i : Nat} {t : Handlers κ δ} (h : Consistent fdSetsize registry s)
    (hi : s.eventFdSet fd = some i) (d : Deleted s fd i t) {fd' : Int} {j : Nat}
    (hj : t.eventFdSet fd' = some j) :
    j < t.eventLast ∧ Function.update registry fd none fd' = some (t.eventList j) := by
  have hlt := (h.pointer fd i hi).1
  have hfd := h.fd_of_pointer hi
  rw [d.pointers] at hj
  by_cases heq : fd' = fd
  · simp [heq] at hj
  · rw [if_neg heq] at hj
    rw [Function.update_of_ne heq]
    by_cases hmoved : fd' = (s.eventList (s.eventLast - 1)).fd
    · rw [if_pos hmoved] at hj
      injection hj with hj
      have hne : i ≠ s.eventLast - 1 := by
        rintro rfl
        exact heq (hmoved.trans hfd)
      have hin : j < t.eventLast := by
        rw [d.last]
        omega
      rw [d.list j hin,if_pos hj.symm,hmoved]
      exact ⟨hin,(h.pointer _ _ (h.slot _ (by omega))).2⟩
    · rw [if_neg hmoved] at hj
      obtain ⟨hlt',hr⟩ := h.pointer fd' j hj
      have hown := h.fd_of_pointer hj
      have hlast : j ≠ s.eventLast - 1 := by
        rintro rfl
        exact hmoved hown.symm
      have hji : j ≠ i := by
        rintro rfl
        exact heq (hown.symm.trans hfd)
      have hin : j < t.eventLast := by
        rw [d.last]
        omega
      rw [d.list j hin,if_neg hji]
      exact ⟨hin,hr⟩

theorem Deleted.slot {fd : Int} {i : Nat} {t : Handlers κ δ} (h : Consistent fdSetsize registry s)
    (hi : s.eventFdSet fd = some i) (d : Deleted s fd i t) {j : Nat} (hj : j < t.eventLast) :
    t.eventFdSet (t.eventList j).fd = some j := by
  have hlt := (h.pointer fd i hi).1
  have hfd := h.fd_of_pointer hi
  have hjlast : j < s.eventLast - 1 := d.last ▸ hj
  rw [d.list j hj,d.pointers]
  by_cases hji : j = i
  · have hmoved : (s.eventList (s.eventLast - 1)).fd ≠ fd := fun heq => by
      have := h.slot_injective (i := i) (j := s.eventLast - 1) hlt (by omega) (hfd.trans heq.symm)
      omega
    rw [if_pos hji,if_neg hmoved,if_pos rfl,hji]
  · have hne : (s.eventList j).fd ≠ fd := fun heq =>
      hji (h.slot_injective (by omega) hlt (heq.trans hfd.symm))
    have hne' : (s.eventList j).fd ≠ (s.eventList (s.eventLast - 1)).fd := fun heq => by
      have := h.slot_injective (i := j) (j := s.eventLast - 1) (by omega) (by omega) heq
      omega
    rw [if_neg hji,if_neg hne,if_neg hne',h.slot j (by omega)]

theorem deleteFdHandler_consistent (h : Consistent fdSetsize registry s) (fd : Int) :
    Consistent fdSetsize ((Op.deleteFdHandler fd : Op κ δ).register registry) (deleteFdHandler s fd) := by
  rw [Op.register]
  cases hi : s.eventFdSet fd with
  | none =>
    have hfree := h.null fd hi
    rw [deleteFdHandler_inactive h hfree,← hfree,Function.update_eq_self]
    exact h
  | some i =>
    have d := deleteFdHandler_active h hi
    have hset : ∀ (set : FdSet) k fd', (∀ fd', set fd' = true →
        ∃ e, registry fd' = some e ∧ e.callback k ≠ none) → fdClr set fd fd' = true →
        ∃ e, Function.update registry fd none fd' = some e ∧ e.callback k ≠ none := by
      intro set k fd' hset hk
      by_cases heq : fd' = fd
      · rw [heq,fdClr,Function.update_self] at hk
        simp at hk
      · rw [fdClr,Function.update_of_ne heq] at hk
        rw [Function.update_of_ne heq]
        exact hset fd' hk
    obtain ⟨hbetween,hvalue,-⟩ :=
      lastActive_spec (deleteFdHandler s fd).eventFdSet (s.fdSetSize - 1).toNat
    constructor
    case capacity => exact d.last ▸ (Nat.sub_le _ _).trans h.capacity
    case slot => exact fun j hj => d.slot h hi hj
    case pointer => exact fun fd' j hj => d.pointer h hi hj
    case null => exact fun fd' hnone => d.null h hnone
    case own =>
      intro fd' e he
      by_cases heq : fd' = fd
      · simp [heq] at he
      · rw [Function.update_of_ne heq] at he
        exact h.own fd' e he
    case above =>
      intro fd' hne
      have heq : fd' ≠ fd := by
        rintro rfl
        exact hne (Function.update_self _ _ _)
      have hold : registry fd' ≠ none := by
        rwa [Function.update_of_ne heq] at hne
      have hlt := h.above fd' hold
      rw [d.size]
      split
      · by_contra hge
        exact hne (d.null h (hbetween fd' (by omega) (by omega)))
      · exact hlt
    case largest =>
      rw [d.size]
      split
      · rcases hvalue with hnone | ⟨hpos,hactive⟩
        · exact .inl (by omega)
        · refine .inr ⟨by omega,?_⟩
          rw [Int.add_sub_cancel]
          obtain ⟨j,hj⟩ := Option.ne_none_iff_exists'.mp hactive
          rw [(d.pointer h hi hj).2]
          simp
      · rename_i hfd
        refine h.largest.imp id fun hpositive => ⟨hpositive.1,?_⟩
        rw [Function.update_of_ne (Ne.symm hfd)]
        exact hpositive.2
    case interest => exact fun k fd' hk => hset _ k fd' (h.interest k) (d.events k ▸ hk)
    case current => exact fun k fd' hk => hset _ k fd' (h.current k) (d.currents k ▸ hk)

variable (fdSetsize s) in
theorem setNotified_cases (k : Kind) (fd : Int) (state : Bool) :
    ((callbackAt s k fd = none ∨ ¬ ValidFd fdSetsize fd) ∧ setNotified fdSetsize k s fd state = s) ∨
      (∃ callback, callbackAt s k fd = some callback) ∧
      ((state = true ∧ setNotified fdSetsize k s fd state =
          { s with eventSet := Function.update s.eventSet k (fdSet (s.eventSet k) fd) }) ∨
        (state = false ∧ setNotified fdSetsize k s fd state =
          { s with
            eventSet := Function.update s.eventSet k (fdClr (s.eventSet k) fd)
            currentSet := Function.update s.currentSet k (fdClr (s.currentSet k) fd) })) := by
  rw [setNotified]
  split
  · rename_i hfd
    exact .inl ⟨.inr fun hvalid => by obtain ⟨h0,h1⟩ := hvalid; omega,rfl⟩
  · split
    · rename_i hcallback
      exact .inl ⟨.inl (by simpa using hcallback),rfl⟩
    · rename_i hcallback
      refine .inr ⟨Option.isSome_iff_exists.mp (by simpa [Option.isSome_iff_ne_none] using hcallback),?_⟩
      cases state with
      | true => exact .inl ⟨rfl,rfl⟩
      | false => exact .inr ⟨rfl,rfl⟩

theorem fdClr_subset {sets : Kind → FdSet} {k k' : Kind} {fd fd' : Int}
    (h : Function.update sets k (fdClr (sets k) fd) k' fd' = true) : sets k' fd' = true := by
  by_cases hk : k' = k
  · rw [hk,Function.update_self] at h
    by_cases heq : fd' = fd
    · rw [heq,fdClr,Function.update_self] at h
      simp at h
    · rw [fdClr,Function.update_of_ne heq] at h
      exact hk ▸ h
  · rwa [Function.update_of_ne hk] at h

theorem setNotified_consistent (h : Consistent fdSetsize registry s) (k : Kind) (fd : Int)
    (state : Bool) : Consistent fdSetsize registry (setNotified fdSetsize k s fd state) := by
  rcases setNotified_cases fdSetsize s k fd state with
    ⟨-,heq⟩ | ⟨⟨callback,hcallback⟩,⟨-,heq⟩ | ⟨-,heq⟩⟩
  · rw [heq]
    exact h
  · rw [heq]
    refine { h with interest := fun k' fd' hk => ?_ }
    simp only at hk
    by_cases hmember : s.eventSet k' fd' = true
    · exact h.interest k' fd' hmember
    · have hkk : k' = k := by
        by_contra hne
        rw [Function.update_of_ne hne] at hk
        exact hmember hk
      have hff : fd' = fd := by
        by_contra hne
        rw [hkk,Function.update_self,fdSet,Function.update_of_ne hne] at hk
        exact hmember (hkk ▸ hk)
      rw [hkk,hff]
      obtain ⟨i,hi,hcb⟩ := Option.bind_eq_some_iff.mp hcallback
      exact ⟨_,(h.pointer fd i hi).2,by rw [hcb]; simp⟩
  · rw [heq]
    exact { h with
      interest := fun k' fd' hk => h.interest k' fd' (fdClr_subset hk)
      current := fun k' fd' hk => h.current k' fd' (fdClr_subset hk) }

theorem Op.apply_consistent (h : Consistent fdSetsize registry s) {op : Op κ δ}
    (hop : op.Valid fdSetsize) : Consistent fdSetsize (op.register registry) (op.apply fdSetsize s) := by
  cases op with
  | setFdHandler event => exact setFdHandler_consistent h hop
  | deleteFdHandler fd => exact deleteFdHandler_consistent h fd
  | setReadable fd state => exact setNotified_consistent h .read fd state
  | setWritable fd state => exact setNotified_consistent h .write fd state
  | setExternalCallback callback =>
    simp only [Op.apply,EventHandler.setExternalCallback,Op.register]
    split
    · exact h
    · exact { h with }

def Op.Ends (k : Kind) (fd : Int) : Op κ δ → Prop
  | .deleteFdHandler fd' => fd' = fd
  | .setReadable fd' state => k = .read ∧ fd' = fd ∧ state = false
  | .setWritable fd' state => k = .write ∧ fd' = fd ∧ state = false
  | _ => False

-- A descriptor still waited for has the handler it had, in the same place or an earlier one.
structure Stays (k : Kind) (fd : Int) (s t : Handlers κ δ) : Prop where
  current : s.currentSet k fd = true
  place : ∃ i j, s.eventFdSet fd = some i ∧ t.eventFdSet fd = some j ∧ j ≤ i ∧
    t.eventList j = s.eventList i

theorem Consistent.place (h : Consistent fdSetsize registry s) {k : Kind} {fd : Int}
    (hk : s.currentSet k fd = true) : ∃ i, s.eventFdSet fd = some i := by
  obtain ⟨event,hr,-⟩ := h.current k fd hk
  refine Option.ne_none_iff_exists'.mp fun hnone => ?_
  rw [h.null fd hnone] at hr
  simp at hr

theorem setFdHandler_stays (h : Consistent fdSetsize registry s) {event : EventFd κ δ}
    (hfd : ValidFd fdSetsize event.fd) {k : Kind} {fd : Int}
    (hk : (setFdHandler fdSetsize s event).currentSet k fd = true) :
    Stays k fd s (setFdHandler fdSetsize s event) ∧
      (Op.setFdHandler event).register registry fd = registry fd := by
  by_cases hfree : registry event.fd = none
  · rw [setFdHandler_free h hfd hfree] at hk ⊢
    obtain ⟨i,hi⟩ := h.place hk
    have hr := (h.pointer fd i hi).2
    have hne : fd ≠ event.fd := by
      rintro rfl
      rw [hfree] at hr
      simp at hr
    refine ⟨⟨hk,i,i,hi,?_,le_refl i,Function.update_of_ne (h.pointer fd i hi).1.ne _ _⟩,?_⟩
    · simp only
      rw [Function.update_of_ne hne,hi]
    · rw [Op.register,if_pos hfree,Function.update_of_ne hne]
  · rw [setFdHandler_active h hfree] at hk ⊢
    obtain ⟨i,hi⟩ := h.place hk
    exact ⟨⟨hk,i,i,hi,hi,le_refl i,rfl⟩,by rw [Op.register,if_neg hfree]⟩

theorem deleteFdHandler_stays (h : Consistent fdSetsize registry s) {fd' : Int} {k : Kind} {fd : Int}
    (hk : (deleteFdHandler s fd').currentSet k fd = true) :
    fd' ≠ fd ∧ Stays k fd s (deleteFdHandler s fd') := by
  cases hi : s.eventFdSet fd' with
  | none =>
    rw [deleteFdHandler_inactive h (h.null fd' hi)] at hk ⊢
    obtain ⟨j,hj⟩ := h.place hk
    refine ⟨?_,⟨hk,j,j,hj,hj,le_refl j,rfl⟩⟩
    rintro rfl
    rw [hi] at hj
    simp at hj
  | some i =>
    have d := deleteFdHandler_active h hi
    have hne : fd ≠ fd' := by
      rintro rfl
      rw [d.currents,fdClr,Function.update_self] at hk
      simp at hk
    rw [d.currents,fdClr,Function.update_of_ne hne] at hk
    obtain ⟨j,hj⟩ := h.place hk
    obtain ⟨hlt,-⟩ := h.pointer fd j hj
    have hfd := h.fd_of_pointer hj
    have hne' : i ≠ j := by
      rintro rfl
      exact hne (hfd.symm.trans (h.fd_of_pointer hi))
    have hin := (h.pointer fd' i hi).1
    have hp := d.pointers fd
    rw [if_neg hne] at hp
    refine ⟨Ne.symm hne,⟨hk,?_⟩⟩
    by_cases hlast : j = s.eventLast - 1
    · rw [if_pos (by rw [← hlast,hfd])] at hp
      refine ⟨j,i,hj,hp,by omega,?_⟩
      rw [d.list i (by rw [d.last]; omega),if_pos rfl,hlast]
    · have hmoved : fd ≠ (s.eventList (s.eventLast - 1)).fd := fun heq =>
        hlast (h.slot_injective hlt (by omega) (hfd.trans heq))
      rw [if_neg hmoved,hj] at hp
      refine ⟨j,j,hj,hp,le_refl j,?_⟩
      rw [d.list j (by rw [d.last]; omega),if_neg (Ne.symm hne')]

theorem setNotified_stays (h : Consistent fdSetsize registry s) {k' : Kind} {fd' : Int} {state : Bool}
    {k : Kind} {fd : Int} (hk : (setNotified fdSetsize k' s fd' state).currentSet k fd = true) :
    ¬ (k = k' ∧ fd' = fd ∧ state = false) ∧ Stays k fd s (setNotified fdSetsize k' s fd' state) := by
  have hstays : ∀ t : Handlers κ δ, s.currentSet k fd = true → t.eventFdSet = s.eventFdSet →
      t.eventList = s.eventList → Stays k fd s t := by
    intro t hs hpointers hlist
    obtain ⟨i,hi⟩ := h.place hs
    exact ⟨hs,i,i,hi,by rw [hpointers,hi],le_refl i,by rw [hlist]⟩
  rcases setNotified_cases fdSetsize s k' fd' state with ⟨hbad,heq⟩ | ⟨-,⟨hstate,heq⟩ | ⟨-,heq⟩⟩
  · rw [heq] at hk ⊢
    refine ⟨?_,hstays s hk rfl rfl⟩
    rintro ⟨rfl,rfl,-⟩
    obtain ⟨i,hi⟩ := h.place hk
    obtain ⟨event,hr,hcallback⟩ := h.current k fd' hk
    have hslot := (h.pointer fd' i hi).2
    rw [hr] at hslot
    injection hslot with hslot
    rcases hbad with hnone | hfd
    · rw [callbackAt,hi,Option.bind_some,← hslot] at hnone
      exact hcallback hnone
    · exact hfd (h.own fd' event hr).2
  · rw [heq] at hk ⊢
    refine ⟨?_,hstays _ hk rfl rfl⟩
    rintro ⟨-,-,hfalse⟩
    rw [hstate] at hfalse
    simp at hfalse
  · rw [heq] at hk ⊢
    refine ⟨?_,hstays _ (fdClr_subset hk) rfl rfl⟩
    rintro ⟨rfl,rfl,-⟩
    simp [fdClr] at hk

theorem Op.apply_stays (h : Consistent fdSetsize registry s) {op : Op κ δ}
    (hop : op.Valid fdSetsize) {k : Kind} {fd : Int}
    (hk : (op.apply fdSetsize s).currentSet k fd = true) :
    ¬ op.Ends k fd ∧ op.register registry fd = registry fd ∧ Stays k fd s (op.apply fdSetsize s) := by
  cases op with
  | setFdHandler event =>
    obtain ⟨hstays,hr⟩ := setFdHandler_stays h hop hk
    exact ⟨id,hr,hstays⟩
  | deleteFdHandler fd' =>
    obtain ⟨hne,hstays⟩ := deleteFdHandler_stays h hk
    exact ⟨hne,Function.update_of_ne (Ne.symm hne) _ _,hstays⟩
  | setReadable fd' state =>
    obtain ⟨hends,hstays⟩ := setNotified_stays h hk
    exact ⟨hends,rfl,hstays⟩
  | setWritable fd' state =>
    obtain ⟨hends,hstays⟩ := setNotified_stays h hk
    exact ⟨hends,rfl,hstays⟩
  | setExternalCallback callback =>
    simp only [Op.apply,EventHandler.setExternalCallback] at hk ⊢
    have hs : s.currentSet k fd = true := by
      split at hk <;> exact hk
    obtain ⟨i,hi⟩ := h.place hs
    refine ⟨id,rfl,hs,i,i,hi,?_,le_refl i,?_⟩
    · split <;> exact hi
    · split <;> rfl

end Consistency

end Trema.EventHandler
