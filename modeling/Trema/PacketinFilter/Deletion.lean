import Trema.PacketinFilter.Filter

namespace Trema.PacketinFilter

open Library
open OpenFlow (OfpMatch)
open Table

variable {t : FilterTable} {s : OrderedMap (List CString)} {m packet : OfpMatch} {priority : UInt16}
  {serviceName : CString}

abbrev Entry := MatchEntry (List CString)

def winning (s : OrderedMap (List CString)) (packet : OfpMatch) : Option Entry :=
  (s.exact.find? fun e => compareMatchStrict e.mtch packet).or
    (s.wild.find? fun e => compareMatch e.mtch packet)

theorem winningEntry_eq (h : Represents t s) (packet : OfpMatch) :
    winningEntry t packet = winning s packet := by
  rw [winningEntry,winning,h.lookupExact,lookupWildcardsMatchEntry,h.wild]

def unkeyed (m : OfpMatch) (priority : UInt16) (s : OrderedMap (List CString)) :
    OrderedMap (List CString) := s.filter fun e => !keyed m priority e

section Parts

theorem winning_append_exact (hm : exactMatch m = true) (s : OrderedMap (List CString))
    (priority : UInt16) (services : List CString) (packet : OfpMatch) :
    winning (s ++ [stored m priority services]) packet =
      ((s.exact ++ [stored m priority services]).find? fun e => compareMatchStrict e.mtch packet).or
        (s.wild.find? fun e => compareMatch e.mtch packet) := by
  have hexact : OrderedMap.exact (s ++ [stored m priority services]) =
      s.exact ++ [stored m priority services] := by
    rw [OrderedMap.exact,List.filter_append,List.filter_cons_of_pos (by simp [stored,hm])]
    rfl
  have hwild : OrderedMap.wild (s ++ [stored m priority services]) = s.wild := by
    rw [OrderedMap.wild,List.filter_append,List.filter_cons_of_neg (by simp [stored,hm]),
      List.filter_nil,List.append_nil]
    rfl
  rw [winning,hexact,hwild]

theorem winning_append_wild (hm : exactMatch m = false) (s : OrderedMap (List CString))
    (priority : UInt16) (services : List CString) (packet : OfpMatch) :
    winning (s ++ [stored m priority services]) packet =
      (s.exact.find? fun e => compareMatchStrict e.mtch packet).or
        ((place MatchEntry.rank ⟨m,priority,services⟩ s.wild).find? fun e =>
          compareMatch e.mtch packet) := by
  have hexact : OrderedMap.exact (s ++ [stored m priority services]) = s.exact := by
    rw [OrderedMap.exact,List.filter_append,List.filter_cons_of_neg (by simp [stored,hm]),
      List.filter_nil,List.append_nil]
    rfl
  have hwild : OrderedMap.wild (s ++ [stored m priority services]) =
      place MatchEntry.rank ⟨m,priority,services⟩ s.wild := by
    rw [OrderedMap.wild,OrderedMap.wild,place_ranked,List.filter_append,
      List.filter_cons_of_pos (by simp [stored,hm]),List.filter_nil,stored,hm]
    rfl
  rw [winning,hexact,hwild]

theorem exact_unkeyed (m : OfpMatch) (priority : UInt16) (s : OrderedMap (List CString)) :
    (unkeyed m priority s).exact = s.exact.filter fun e => !keyed m priority e :=
  List.filter_comm _ _ _

theorem wild_unkeyed (m : OfpMatch) (priority : UInt16) (s : OrderedMap (List CString)) :
    (unkeyed m priority s).wild = s.wild.filter fun e => !keyed m priority e := by
  rw [OrderedMap.wild,OrderedMap.wild,filter_ranked,unkeyed,List.filter_comm]

end Parts

section Search

variable {α : Type} {p q : α → Bool} {l : List α}

theorem find?_filter_of_find? {a : α} (h : l.find? p = some a) (ha : q a = true) :
    (l.filter q).find? p = some a := by
  induction l with
  | nil => exact absurd h (by simp)
  | cons b l ih =>
    by_cases hb : p b = true
    · rw [List.find?_cons_of_pos hb] at h
      obtain rfl := Option.some.inj h
      rw [List.filter_cons_of_pos ha,List.find?_cons_of_pos hb]
    · rw [List.find?_cons_of_neg hb] at h
      by_cases hq : q b = true
      · rw [List.filter_cons_of_pos hq,List.find?_cons_of_neg hb,ih h]
      · rw [List.filter_cons_of_neg hq,ih h]

theorem find?_filter_of_neg (h : ∀ a ∈ l, q a = false → p a = false) :
    (l.filter q).find? p = l.find? p := by
  refine find?_filter_of_imp fun a ha hp => ?_
  cases hq : q a with
  | true => rfl
  | false => exact absurd (h a ha hq) (by simp [hp])

end Search

section Frame

def remaining (m : OfpMatch) (priority : UInt16) (serviceName : CString)
    (s : OrderedMap (List CString)) : List CString :=
  (entryData (s.find m priority)).filter (· ≠ serviceName)

def afterDeletion (m : OfpMatch) (priority : UInt16) (serviceName : CString)
    (s : OrderedMap (List CString)) : OrderedMap (List CString) :=
  if remaining m priority serviceName s = [] then unkeyed m priority s
  else unkeyed m priority s ++ [stored m priority (remaining m priority serviceName s)]

theorem find_unkeyed (m : OfpMatch) (priority : UInt16) (s : OrderedMap (List CString)) :
    (unkeyed m priority s).find m priority = none := by
  refine List.find?_eq_none.mpr fun e he => ?_
  simpa using (List.mem_filter.mp he).2

theorem insert_unkeyed (m : OfpMatch) (priority : UInt16) (s : OrderedMap (List CString))
    (services : List CString) :
    ((unkeyed m priority s).insert m priority services).2 =
      unkeyed m priority s ++ [stored m priority services] := by
  rw [OrderedMap.insert,find_unkeyed]
  rfl

theorem represents_afterDeletion (h : Represents t s) (m : OfpMatch) (priority : UInt16)
    (serviceName : CString) :
    Represents (deletePacketinMatchEntry t m priority serviceName).2
      (afterDeletion m priority serviceName s) := by
  obtain ⟨hhead,hremoved⟩ := h.remove m priority
  have hremaining : remaining m priority serviceName s =
      (deleteMatchStrictEntry t m priority).1.filter (· ≠ serviceName) := by rw [hhead]; rfl
  rw [deletePacketinMatchEntry,afterDeletion,hremaining]
  split
  · rename_i hd
    rw [hd] at hremoved ⊢
    exact hremoved
  · rename_i hd
    rw [hd] at hremoved ⊢
    split
    · rename_i hnone
      rw [if_pos hnone]
      exact hremoved
    · rename_i hsome
      rw [if_neg hsome]
      rw [← insert_unkeyed]
      exact (hremoved.insert m priority _).2

theorem winning_missing (h : s.find m priority = none) (packet : OfpMatch) :
    winning (afterDeletion m priority serviceName s) packet = winning s packet := by
  have hsame : unkeyed m priority s = s := by
    refine List.filter_eq_self.mpr fun e he => ?_
    simpa using List.find?_eq_none.mp h e he
  rw [afterDeletion,remaining,h,hsame]
  rfl

theorem keyed_covers (hp : exactMatch packet = true) {e : Entry} (he : keyed m priority e = true) :
    compareMatch e.mtch packet = compareMatch m packet := by
  rw [keyed,Bool.and_eq_true] at he
  exact compareMatch_congr_left hp he.1

theorem keyed_equals {e : Entry} (he : keyed m priority e = true) :
    compareMatchStrict e.mtch packet = compareMatchStrict m packet := by
  rw [keyed,Bool.and_eq_true] at he
  exact Bool.eq_iff_iff.mpr ⟨compareMatchStrict_trans (compareMatchStrict_symm he.1),
    compareMatchStrict_trans he.1⟩

theorem not_exact_of_wild {e : Entry} (he : e ∈ s.wild) : exactMatch e.mtch = false := by
  rw [OrderedMap.wild,mem_ranked,List.mem_filter] at he
  simpa using he.2

theorem exact_of_exact {e : Entry} (he : e ∈ s.exact) : exactMatch e.mtch = true :=
  (List.mem_filter.mp he).2

theorem exact_unchanged (hm : exactMatch m = false) (priority : UInt16)
    (s : OrderedMap (List CString)) : (unkeyed m priority s).exact = s.exact := by
  rw [exact_unkeyed]
  refine List.filter_eq_self.mpr fun e he => ?_
  by_cases hk : keyed m priority e = true
  · exact absurd (exact_of_exact he) (by rw [exactMatch_of_keyed hk,hm]; simp)
  · simpa using hk

theorem ranked_wild (s : OrderedMap (List CString)) : Ranked MatchEntry.rank s.wild :=
  pairwise_ranked _

theorem wild_unchanged (hm : exactMatch m = true) (priority : UInt16)
    (s : OrderedMap (List CString)) : (unkeyed m priority s).wild = s.wild := by
  rw [wild_unkeyed]
  refine List.filter_eq_self.mpr fun e he => ?_
  by_cases hk : keyed m priority e = true
  · exact absurd (not_exact_of_wild he) (by rw [exactMatch_of_keyed hk,hm]; simp)
  · simpa using hk

theorem winning_other_exact (hm : exactMatch m = true) {e : Entry}
    (hfind : s.find m priority = some e)
    (hother : ∀ w, winning s packet = some w → keyed m priority w = false) :
    winning (afterDeletion m priority serviceName s) packet = winning s packet := by
  have hkeyed : keyed m priority e = true := List.find?_some hfind
  have hexact : e ∈ s.exact :=
    List.mem_filter.mpr ⟨List.mem_of_find?_eq_some hfind,(exactMatch_of_keyed hkeyed).trans hm⟩
  have hdiffer : compareMatchStrict m packet = false := by
    by_contra hsame
    rw [Bool.not_eq_false] at hsame
    have hsome : ((s.exact.find? fun a => compareMatchStrict a.mtch packet)).isSome = true := by
      refine List.find?_isSome.mpr ⟨e,hexact,?_⟩
      rw [keyed_equals hkeyed,hsame]
    obtain ⟨w,hw⟩ := Option.isSome_iff_exists.mp hsome
    have hwin := hother w (by rw [winning,hw]; rfl)
    have hequal := List.find?_some hw
    rw [keyed_exact hm,compareMatchStrict_trans hequal (compareMatchStrict_symm hsame)] at hwin
    exact absurd hwin (by simp)
  have hsearch : (unkeyed m priority s).exact.find? (fun a => compareMatchStrict a.mtch packet) =
      s.exact.find? fun a => compareMatchStrict a.mtch packet := by
    rw [exact_unkeyed]
    refine find?_filter_of_neg fun a _ ha => ?_
    rw [keyed_equals (by simpa using ha),hdiffer]
  rw [afterDeletion]
  split
  · rw [winning,winning,hsearch,wild_unchanged hm]
  · rw [winning_append_exact hm,winning,List.find?_append,hsearch,wild_unchanged hm,
      List.find?_cons_of_neg (by simp [stored,hdiffer]),List.find?_nil,Option.or_none]

theorem priority_of_keyed (hm : exactMatch m = false) {e : Entry} (h : keyed m priority e = true) :
    e.priority = priority := by
  rw [keyed_wild hm,isEntry,Bool.and_eq_true] at h
  exact eq_of_beq h.1

-- The reinserted entry goes behind the entries of its priority, so it never gets in front of the
-- entry that won before.
theorem search_other (hp : exactMatch packet = true) (hm : exactMatch m = false) {e : Entry}
    (hfind : s.find m priority = some e)
    (hother : ∀ w, (s.wild.find? fun a => compareMatch a.mtch packet) = some w →
      keyed m priority w = false) (services : List CString) :
    ((unkeyed m priority s).wild.find? fun a => compareMatch a.mtch packet) =
      (s.wild.find? fun a => compareMatch a.mtch packet) ∧
    ((place MatchEntry.rank ⟨m,priority,services⟩ (unkeyed m priority s).wild).find? fun a =>
      compareMatch a.mtch packet) = (s.wild.find? fun a => compareMatch a.mtch packet) := by
  have hkeyed : keyed m priority e = true := List.find?_some hfind
  have hwild : e ∈ s.wild := by
    rw [OrderedMap.wild,mem_ranked]
    exact List.mem_filter.mpr ⟨List.mem_of_find?_eq_some hfind,by simp [exactMatch_of_keyed hkeyed,hm]⟩
  have hsearch : (unkeyed m priority s).wild.find? (fun a => compareMatch a.mtch packet) =
      s.wild.find? fun a => compareMatch a.mtch packet := by
    rw [wild_unkeyed]
    cases hw : s.wild.find? fun a => compareMatch a.mtch packet with
    | none =>
      refine List.find?_eq_none.mpr fun a ha => ?_
      exact List.find?_eq_none.mp hw a (List.mem_filter.mp ha).1
    | some w =>
      refine find?_filter_of_find? hw ?_
      rw [hother w hw]
      rfl
  refine ⟨hsearch,?_⟩
  by_cases hcover : compareMatch m packet = true
  · cases hw : s.wild.find? fun a => compareMatch a.mtch packet with
    | none =>
      have hnone := List.find?_eq_none.mp hw e hwild
      rw [keyed_covers hp hkeyed] at hnone
      exact absurd hcover hnone
    | some w =>
      refine find?_place_of_le (hsearch.trans hw) ?_ (ranked_wild _)
      have hle := (ranked_wild s).rank_le_find? hwild (by rw [keyed_covers hp hkeyed,hcover]) hw
      rw [MatchEntry.rank,priority_of_keyed hm hkeyed] at hle
      exact hle
  · rw [← hsearch]
    exact find?_place_neg _ hcover

theorem winning_other (hp : exactMatch packet = true) {e : Entry}
    (hfind : s.find m priority = some e)
    (hother : ∀ w, winning s packet = some w → keyed m priority w = false) :
    winning (afterDeletion m priority serviceName s) packet = winning s packet := by
  cases hm : exactMatch m with
  | true => exact winning_other_exact hm hfind hother
  | false =>
    have hout : afterDeletion m priority serviceName s = unkeyed m priority s ∨
        afterDeletion m priority serviceName s =
          unkeyed m priority s ++ [stored m priority (remaining m priority serviceName s)] := by
      rw [afterDeletion]
      split
      · exact .inl rfl
      · exact .inr rfl
    cases hx : s.exact.find? fun a => compareMatchStrict a.mtch packet with
    | some w =>
      rcases hout with hout | hout
      · rw [hout,winning,winning,exact_unchanged hm,hx]
        rfl
      · rw [hout,winning_append_wild hm,winning,exact_unchanged hm,hx]
        rfl
    | none =>
      obtain ⟨hdeleted,hplaced⟩ := search_other hp hm hfind
        (fun w hw => hother w (by rw [winning,hx,hw]; rfl)) (remaining m priority serviceName s)
      rcases hout with hout | hout
      · rw [hout,winning,winning,exact_unchanged hm,hdeleted]
      · rw [hout,winning_append_wild hm,winning,exact_unchanged hm,hplaced]

theorem winning_exact {e : Entry} (hm : exactMatch m = true) (hkeyed : keyed m priority e = true)
    (hwin : winning s packet = some e) : compareMatchStrict m packet = true := by
  rw [winning,Option.or_eq_some_iff] at hwin
  rcases hwin with hx | ⟨_,hw⟩
  · have hsame := List.find?_some hx
    rwa [keyed_equals hkeyed] at hsame
  · have hwild := not_exact_of_wild (List.mem_of_find?_eq_some hw)
    rw [exactMatch_of_keyed hkeyed,hm] at hwild
    exact absurd hwild (by simp)

theorem winning_wild {e : Entry} (hm : exactMatch m = false) (hkeyed : keyed m priority e = true)
    (hwin : winning s packet = some e) :
    (s.exact.find? fun a => compareMatchStrict a.mtch packet) = none ∧
      (s.wild.find? fun a => compareMatch a.mtch packet) = some e := by
  rw [winning,Option.or_eq_some_iff] at hwin
  rcases hwin with hx | hw
  · have hexact := exact_of_exact (List.mem_of_find?_eq_some hx)
    rw [exactMatch_of_keyed hkeyed,hm] at hexact
    exact absurd hexact (by simp)
  · exact hw

theorem no_exact_left {e : Entry} (hkeyed : keyed m priority e = true)
    (hwin : winning s packet = some e) :
    ((unkeyed m priority s).exact.find? fun a => compareMatchStrict a.mtch packet) = none := by
  cases hm : exactMatch m with
  | false =>
    rw [exact_unchanged hm]
    exact (winning_wild hm hkeyed hwin).1
  | true =>
    rw [exact_unkeyed]
    refine List.find?_eq_none.mpr fun a ha hsame => ?_
    have hout := (List.mem_filter.mp ha).2
    rw [keyed_exact hm,compareMatchStrict_trans hsame
      (compareMatchStrict_symm (winning_exact hm hkeyed hwin))] at hout
    exact absurd hout (by simp)

theorem winning_emptied {e : Entry} (hkeyed : keyed m priority e = true)
    (hwin : winning s packet = some e) (hleft : remaining m priority serviceName s = []) :
    winning (afterDeletion m priority serviceName s) packet =
      (s.wild.filter fun a => !keyed m priority a).find? fun a => compareMatch a.mtch packet := by
  rw [afterDeletion,if_pos hleft,winning,no_exact_left hkeyed hwin,Option.none_or,wild_unkeyed]

theorem keyed_stored_self (m : OfpMatch) (priority : UInt16) (services : List CString) :
    keyed m priority (stored m priority services) = true := by
  rw [keyed,stored,compareMatchStrict_refl,Bool.true_and]
  cases hm : exactMatch m with
  | true => rfl
  | false => simp

theorem winning_kept (hp : exactMatch packet = true) {e : Entry} (hkeyed : keyed m priority e = true)
    (hwin : winning s packet = some e) (hleft : remaining m priority serviceName s ≠ [])
    (honly : exactMatch m = false → ∀ a ∈ s.wild, keyed m priority a = false →
      a.priority = priority → compareMatch a.mtch packet = false) :
    winning (afterDeletion m priority serviceName s) packet =
      some (stored m priority (remaining m priority serviceName s)) := by
  rw [afterDeletion,if_neg hleft]
  cases hm : exactMatch m with
  | true =>
    rw [winning_append_exact hm,List.find?_append,no_exact_left hkeyed hwin,Option.none_or,
      List.find?_cons_of_pos (by exact winning_exact hm hkeyed hwin)]
    rfl
  | false =>
    obtain ⟨_,hw⟩ := winning_wild hm hkeyed hwin
    have hcover : compareMatch m packet = true := by
      have hsame := List.find?_some hw
      rwa [keyed_covers hp hkeyed] at hsame
    have hpriority := priority_of_keyed hm hkeyed
    rw [winning_append_wild hm,no_exact_left hkeyed hwin,Option.none_or,stored,hm]
    refine find?_place_new hcover fun a ha hq => ?_
    rw [wild_unkeyed,List.mem_filter] at ha
    have hle : a.rank ≤ e.rank := (ranked_wild s).rank_le_find? ha.1 hq hw
    have hne : a.priority ≠ priority := by
      intro hsame
      have hno := honly hm a ha.1 (by simpa using ha.2) hsame
      rw [hq] at hno
      exact absurd hno (by simp)
    rw [MatchEntry.rank,MatchEntry.rank,hpriority] at hle
    exact lt_of_le_of_ne hle fun heq => hne (UInt16.toNat_inj.mp heq)

theorem find_of_winning (h : Represents t s) {e : Entry} (hkeyed : keyed m priority e = true)
    (hwin : winning s packet = some e) : s.find m priority = some e := by
  have hmem : e ∈ s := by
    rw [winning,Option.or_eq_some_iff] at hwin
    rcases hwin with hx | ⟨_,hw⟩
    · exact (List.mem_filter.mp (List.mem_of_find?_eq_some hx)).1
    · have hwild := List.mem_of_find?_eq_some hw
      rw [OrderedMap.wild,mem_ranked] at hwild
      exact (List.mem_filter.mp hwild).1
  exact (atMostOne_keyed h.keys).find?_eq_some.mpr ⟨hmem,hkeyed⟩

end Frame

theorem strict_deletion_frame (requests : List Request) (m : OfpMatch) (priority : UInt16)
    (serviceName : CString) (packet : OfpMatch) (hp : exactMatch packet = true) :
    let t := filterTable requests
    let t' := (deletePacketinMatchEntry t m priority serviceName).2
    ((∀ e, winningEntry t packet = some e → keyed m priority e = false) →
      winningEntry t' packet = winningEntry t packet ∧ forwarded t' packet = forwarded t packet) ∧
    (∀ e, winningEntry t packet = some e → keyed m priority e = true →
      (forwarded t packet).filter (· ≠ serviceName) ≠ [] →
      (exactMatch m = false → ∀ a ∈ t.wildcardsTable, keyed m priority a = false →
        a.priority = priority → compareMatch a.mtch packet = false) →
      (∃ e', winningEntry t' packet = some e' ∧ keyed m priority e' = true) ∧
        forwarded t' packet = (forwarded t packet).filter (· ≠ serviceName)) ∧
    (∀ e, winningEntry t packet = some e → keyed m priority e = true →
      (forwarded t packet).filter (· ≠ serviceName) = [] →
      winningEntry t' packet = (t.wildcardsTable.filter fun a => !keyed m priority a).find? fun a =>
        compareMatch a.mtch packet) := by
  intro t t'
  obtain ⟨s,h,_⟩ := represents_filterTable requests
  have h' := represents_afterDeletion h m priority serviceName
  have hleft : ∀ e, winningEntry t packet = some e → keyed m priority e = true →
      (forwarded t packet).filter (· ≠ serviceName) = remaining m priority serviceName s := by
    intro e hwin hkeyed
    rw [remaining,find_of_winning h hkeyed ((winningEntry_eq h packet).symm.trans hwin),
      forwarded_eq,hwin]
  refine ⟨fun hother => ?_,fun e hwin hkeyed hsome honly => ?_,fun e hwin hkeyed hnone => ?_⟩
  · have hsame : winningEntry t' packet = winningEntry t packet := by
      rw [winningEntry_eq h,winningEntry_eq h']
      cases hfind : s.find m priority with
      | none => exact winning_missing hfind packet
      | some e =>
        refine winning_other hp hfind fun w hw => ?_
        exact hother w ((winningEntry_eq h packet).trans hw)
    exact ⟨hsame,by rw [forwarded_eq,forwarded_eq,hsame]⟩
  · rw [hleft e hwin hkeyed] at hsome
    have hkept := (winningEntry_eq h' packet).trans (winning_kept hp hkeyed
      ((winningEntry_eq h packet).symm.trans hwin) hsome (by rw [← h.wild]; exact honly))
    refine ⟨⟨_,hkept,keyed_stored_self m priority _⟩,?_⟩
    rw [hleft e hwin hkeyed,forwarded_eq,hkept]
    rfl
  · rw [hleft e hwin hkeyed] at hnone
    rw [winningEntry_eq h',winning_emptied hkeyed ((winningEntry_eq h packet).symm.trans hwin) hnone,
      ← h.wild]

section Instances

def named (c : UInt8) (h : c ≠ 0) : CString := ⟨[c],by simpa using h.symm⟩

def portPacket (inPort : UInt16) : OfpMatch := { portMatch inPort with wildcards := 0 }

theorem shared_entry_deletion :
    winningEntry (filterTable [.add (portMatch 1) 1 (named 120 (by decide)),
      .add (portMatch 1) 1 (named 121 (by decide))]) (portPacket 1) =
      some ⟨portMatch 1,1,[named 120 (by decide),named 121 (by decide)]⟩ ∧
    forwarded (deletePacketinMatchEntry (filterTable [.add (portMatch 1) 1 (named 120 (by decide)),
      .add (portMatch 1) 1 (named 121 (by decide))]) (portMatch 1) 1 (named 120 (by decide))).2
      (portPacket 1) = [named 121 (by decide)] := by
  have hwin : winningEntry (filterTable [.add (portMatch 1) 1 (named 120 (by decide)),
      .add (portMatch 1) 1 (named 121 (by decide))]) (portPacket 1) =
      some ⟨portMatch 1,1,[named 120 (by decide),named 121 (by decide)]⟩ := by decide
  refine ⟨hwin,?_⟩
  rw [((strict_deletion_frame _ (portMatch 1) 1 (named 120 (by decide)) (portPacket 1)
    (by decide)).2.1 _ hwin (by decide) (by decide) (by decide)).2]
  decide

theorem deletion_falls_through :
    forwarded (filterTable [.add (portMatch 1) 2 (named 120 (by decide)),
      .add anyPacket 1 (named 121 (by decide))]) (portPacket 1) = [named 120 (by decide)] ∧
    forwarded (deletePacketinMatchEntry (filterTable [.add (portMatch 1) 2 (named 120 (by decide)),
      .add anyPacket 1 (named 121 (by decide))]) (portMatch 1) 2 (named 120 (by decide))).2
      (portPacket 1) = [named 121 (by decide)] ∧
    [named 121 (by decide)] ≠ [named 120 (by decide)] ∧
    [named 121 (by decide)] ≠ [named 120 (by decide)].filter (· ≠ named 120 (by decide)) := by
  refine ⟨by decide,by decide,by decide,by decide⟩

end Instances

end Trema.PacketinFilter
