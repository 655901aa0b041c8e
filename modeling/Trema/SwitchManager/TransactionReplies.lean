import Trema.SwitchManager.TransactionRuns

namespace Trema.SwitchManager

open Library
open OpenFlow

namespace XidTable

variable {σ : Type} {t : XidTable σ} {xid : UInt32} {e : XidEntry σ}

-- What is found was there before, or has been inserted since.
theorem inserted_of_step (h : t.Consistent) (event : XidEvent σ)
    (he : (t.step event).lookupXidEntry xid = some e) :
    t.lookupXidEntry xid = some e ∨ event = .insert xid e.originalXid e.serviceName := by
  cases event with
  | insert xid' originalXid serviceName =>
    rcases (lookup_insert_iff h).mp he with ⟨rfl,rfl⟩ | ⟨_,he,_⟩
    · exact .inr rfl
    · exact .inl he
  | delete xid' =>
    rw [step] at he
    cases hold : t.lookupXidEntry xid' with
    | none =>
      rw [hold] at he
      exact .inl he
    | some a =>
      rw [hold] at he
      have ha : t.lookupXidEntry a.xid = some a := by
        rw [h.keyed _ a hold]
        exact hold
      exact .inl ((lookup_delete_iff h ha).mp he).1
  | lookup xid' => exact .inl he

theorem inserted_of_run (h : t.Consistent) {events : List (XidEvent σ)}
    (he : (t.run events).lookupXidEntry xid = some e) :
    t.lookupXidEntry xid = some e ∨ .insert xid e.originalXid e.serviceName ∈ events := by
  induction events generalizing t with
  | nil => exact .inl he
  | cons event events ih =>
    rcases ih (h.step event) he with hfound | hmem
    · rcases inserted_of_step h event hfound with hold | rfl
      · exact .inl hold
      · exact .inr List.mem_cons_self
    · exact .inr (List.mem_cons_of_mem _ hmem)

end XidTable

section Logs

variable {happenings : List Happening} {sentOut : Bool} {xid originalXid : UInt32} {serviceName : Bytes}

theorem given_of_insert (h : .insert xid originalXid serviceName ∈ xidLog happenings) :
    ∃ sentOut, .given sentOut xid originalXid serviceName ∈ happenings := by
  obtain ⟨x,hx,hevent⟩ := List.mem_filterMap.mp h
  cases x with
  | given sentOut a b c =>
    injection hevent with hevent
    injection hevent with ha hb hc
    rw [← ha,← hb,← hc]
    exact ⟨sentOut,hx⟩
  | replied a heeded last forwarded => cases heeded <;> cases last <;> exact absurd hevent (by simp [Happening.xidEvent?])
  | other => exact absurd hevent (by simp [Happening.xidEvent?])

theorem mem_givenXids (h : .given sentOut xid originalXid serviceName ∈ happenings) : xid ∈ givenXids happenings :=
  List.mem_filterMap.mpr ⟨_,h,rfl⟩

-- The last part of a reply has not been taken in yet.
def Unanswered (xid : UInt32) (happenings : List Happening) : Prop :=
  ∀ forwarded, .replied xid true true forwarded ∉ happenings

-- The reply is still to come, and the entry has not made room for a later one.
def Awaited (xid : UInt32) (happenings : List Happening) : Prop :=
  Unanswered xid happenings ∧ (givenXids happenings).length < xidMaxEntries

theorem removes_iff (hxid : xid ∉ givenXids happenings) :
    (∀ event ∈ xidLog happenings, ¬ event.Removes xid) ↔ Unanswered xid happenings := by
  constructor
  · intro h forwarded hmem
    exact h (.delete xid) (List.mem_filterMap.mpr ⟨_,hmem,rfl⟩) rfl
  · intro h event hevent hremoves
    obtain ⟨x,hx,hlogged⟩ := List.mem_filterMap.mp hevent
    cases x with
    | given sentOut a b c =>
      injection hlogged with hlogged
      rw [← hlogged] at hremoves
      rw [← show a = xid from hremoves] at hxid
      exact hxid (mem_givenXids hx)
    | replied a heeded last forwarded =>
      cases heeded <;> cases last <;> simp only [Happening.xidEvent?] at hlogged
      · exact absurd hlogged (by simp)
      · exact absurd hlogged (by simp)
      · exact absurd hlogged (by simp)
      · injection hlogged with hlogged
        rw [← hlogged] at hremoves
        rw [show a = xid from hremoves] at hx
        exact h forwarded hx
    | other => exact absurd hlogged (by simp [Happening.xidEvent?])

theorem insertions_xidLog (happenings : List Happening) :
    insertions (xidLog happenings) = (givenXids happenings).length := by
  induction happenings with
  | nil => rfl
  | cons x happenings ih =>
    rw [xidLog,givenXids] at ih ⊢
    cases x with
    | given sentOut a b c =>
      simp only [List.filterMap_cons,Happening.xidEvent?,Happening.givenXid?,List.length_cons,← ih]
      exact List.countP_cons_of_pos rfl
    | replied a heeded last forwarded =>
      cases heeded <;> cases last <;>
        simp only [List.filterMap_cons,Happening.xidEvent?,Happening.givenXid?,← ih]
      exact List.countP_cons_of_neg (by simp [XidEvent.isInsert])
    | other => exact ih

end Logs

-- Every reply is forwarded as the transcript before it says, and no two requests are given the same transaction id.
structure Coherent (transcript : List Happening) : Prop where
  distinct : (givenXids transcript).Nodup
  answers : ∀ before x after, transcript = before ++ x :: after → Answers before x

namespace Coherent

variable {transcript before between after : List Happening} {xid originalXid : UInt32} {serviceName : Bytes}
  {sentOut heeded last : Bool} {forwarded : List Output}

theorem requested (h : Coherent transcript)
    (hsplit : transcript = before ++ .replied xid heeded last forwarded :: after) {output : Output}
    (houtput : output ∈ forwarded) : heeded = true ∧ ∃ sentOut originalXid serviceName,
      .given sentOut xid originalXid serviceName ∈ before ∧ output.Returns serviceName originalXid := by
  have hanswers := h.answers _ _ _ hsplit
  cases heeded with
  | false =>
    rw [show forwarded = [] from hanswers] at houtput
    exact absurd houtput (by simp)
  | true =>
    rw [Answers] at hanswers
    cases hfound : (loggedTable before).lookupXidEntry xid with
    | none =>
      rw [hfound] at hanswers
      rw [show forwarded = [] from hanswers] at houtput
      exact absurd houtput (by simp)
    | some entry =>
      rw [hfound] at hanswers
      obtain ⟨only,rfl,hreturns⟩ := hanswers
      rw [List.mem_singleton.mp houtput]
      rcases XidTable.inserted_of_run XidTable.init_consistent hfound with hinit | hmem
      · exact absurd hinit (by simp [show initXidTable.lookupXidEntry xid = none from rfl])
      · obtain ⟨sentOut,hgiven⟩ := given_of_insert hmem
        exact ⟨rfl,sentOut,_,_,hgiven,hreturns⟩

theorem not_given_again (h : Coherent transcript)
    (hsplit : transcript = before ++ .given sentOut xid originalXid serviceName :: between ++ after) :
    xid ∉ givenXids between := by
  have hdistinct := h.distinct
  have hxids : givenXids transcript = givenXids before ++ xid :: (givenXids between ++ givenXids after) := by
    rw [hsplit]
    simp [givenXids,Happening.givenXid?]
  rw [hxids,List.nodup_append] at hdistinct
  intro hmem
  exact (List.nodup_cons.mp hdistinct.2.1).1 (List.mem_append_left _ hmem)

theorem found_of_given (h : Coherent transcript)
    (hsplit : transcript = before ++ .given sentOut xid originalXid serviceName :: between ++ after) :
    ∃ entry : XidEntry Bytes, entry.originalXid = originalXid ∧ entry.serviceName = serviceName ∧
      ((loggedTable (before ++ .given sentOut xid originalXid serviceName :: between)).lookupXidEntry xid =
        some entry ↔ Awaited xid between) ∧
      ∀ found, (loggedTable (before ++ .given sentOut xid originalXid serviceName :: between)).lookupXidEntry xid =
        some found → found = entry := by
  have hxid := h.not_given_again hsplit
  have hlog : xidLog (before ++ .given sentOut xid originalXid serviceName :: between) =
      xidLog before ++ .insert xid originalXid serviceName :: xidLog between := by
    simp [xidLog,Happening.xidEvent?]
  have hstays := XidTable.inserted_stays (xidLog before) (xidLog between) xid originalXid serviceName
  rw [removes_iff hxid,insertions_xidLog between] at hstays
  rw [loggedTable,hlog]
  refine ⟨_,rfl,rfl,hstays,fun found hfound => ?_⟩
  have hbefore : (initXidTable.run (xidLog before)).Consistent := XidTable.init_consistent.run _
  have hinserted : ((initXidTable.run (xidLog before)).step (.insert xid originalXid serviceName)).lookupXidEntry
      xid = some ⟨xid,originalXid,serviceName,insertions (xidLog before) % xidMaxEntries,
        insertions (xidLog before)⟩ := by
    have hnow := (XidTable.inserted_stays (xidLog before) [] xid originalXid serviceName).mpr
      ⟨by simp,by decide⟩
    rw [XidTable.run_append] at hnow
    exact hnow
  rw [XidTable.run_append,XidTable.run] at hfound
  rcases XidTable.inserted_of_run (hbefore.step _) hfound with hold | hmem
  · rw [hinserted] at hold
    exact (Option.some.inj hold).symm
  · obtain ⟨_,hgiven⟩ := given_of_insert hmem
    exact absurd (mem_givenXids hgiven) hxid

theorem forwarded_iff (h : Coherent transcript) (hsplit : transcript =
      before ++ .given sentOut xid originalXid serviceName :: between ++ .replied xid heeded last forwarded :: after) :
    (heeded = true → Awaited xid between →
        ∃ output, forwarded = [output] ∧ output.Returns serviceName originalXid) ∧
      (forwarded ≠ [] → heeded = true ∧ Awaited xid between) := by
  obtain ⟨entry,rfl,rfl,hawaited,hfound⟩ := h.found_of_given hsplit
  have hanswers := h.answers _ _ _ hsplit
  cases heeded with
  | false => exact ⟨fun hno => absurd hno (by simp),fun hsome => absurd hanswers hsome⟩
  | true =>
    rw [Answers] at hanswers
    constructor
    · intro _ hopen
      rw [hawaited.mpr hopen] at hanswers
      exact hanswers
    · intro hsome
      refine ⟨rfl,hawaited.mp ?_⟩
      cases hlook : (loggedTable (before ++ .given sentOut xid entry.originalXid entry.serviceName ::
        between)).lookupXidEntry xid with
      | none =>
        rw [hlook] at hanswers
        exact absurd hanswers hsome
      | some found => rw [hfound found hlook]

-- Nothing is forwarded after the last part.
theorem once (h : Coherent transcript) {heeded' last' : Bool} {forwarded' : List Output}
    (hsplit : transcript = before ++ .replied xid heeded true forwarded :: between ++
      .replied xid heeded' last' forwarded' :: after) (hforwarded : forwarded ≠ []) : forwarded' = [] := by
  by_contra hagain
  obtain ⟨output,houtput⟩ := List.exists_mem_of_ne_nil _ hforwarded
  have hearlier : transcript = before ++ .replied xid heeded true forwarded ::
      (between ++ .replied xid heeded' last' forwarded' :: after) := by
    rw [hsplit]
    simp
  obtain ⟨rfl,sentOut,originalXid,serviceName,hgiven,_⟩ := h.requested hearlier houtput
  obtain ⟨first,second,rfl⟩ := List.append_of_mem hgiven
  have hlater : transcript = first ++ .given sentOut xid originalXid serviceName ::
      (second ++ .replied xid true true forwarded :: between) ++
        .replied xid heeded' last' forwarded' :: after := by
    rw [hsplit]
    simp
  exact ((h.forwarded_iff hlater).2 hagain).2.1 forwarded (by simp)

end Coherent

theorem Tracks.run {d : Daemon} {happenings : List Happening} {generated fuel : Nat}
    (h : Tracks d.info happenings generated) {events : List TransactionEvent}
    (hlt : generated + d.generatedXids fuel events < 4294967296) :
    (givenXids (happenings ++ d.transcript fuel events)).Nodup ∧
      ∀ before x after, d.transcript fuel events = before ++ x :: after → Answers (happenings ++ before) x := by
  induction events generalizing d happenings generated with
  | nil =>
    refine ⟨by rw [Daemon.transcript,List.append_nil]; exact h.distinct,?_⟩
    intro before x after hsplit
    exact absurd hsplit (by simp [Daemon.transcript])
  | cons event events ih =>
    rw [Daemon.generatedXids] at hlt
    rw [Daemon.transcript]
    cases hstep : d.transact fuel event with
    | error stop =>
      refine ⟨by rw [List.append_nil]; exact h.distinct,?_⟩
      intro before x after hsplit
      exact absurd hsplit (by simp)
    | ok d' =>
      simp only [hstep] at hlt
      obtain ⟨htracks,hanswers⟩ := h.transact (by omega) hstep
      obtain ⟨hdistinct,hrest⟩ := ih htracks (by omega)
      rw [List.append_assoc,List.singleton_append] at hdistinct
      refine ⟨hdistinct,?_⟩
      intro before x after hsplit
      cases before with
      | nil =>
        injection hsplit with hx _
        rw [← hx,List.append_nil]
        exact hanswers
      | cons y before =>
        injection hsplit with hy hsplit
        have hlater := hrest before x after hsplit
        rwa [List.append_assoc,hy] at hlater

theorem run_coherent (options : StartOptions) {fuel : Nat} {events : List TransactionEvent}
    (hxids : (Daemon.started (initSwitchInfo options)).generatedXids fuel events < 4294967296) :
    Coherent ((Daemon.started (initSwitchInfo options)).transcript fuel events) := by
  have hstart : Tracks (Daemon.started (initSwitchInfo options)).info [] 0 := Tracks.init options
  obtain ⟨hdistinct,hanswers⟩ := hstart.run (by rw [Nat.zero_add]; exact hxids)
  exact ⟨hdistinct,hanswers⟩

end Trema.SwitchManager
