import Trema.Management.Requests
import Trema.Messenger.EndToEnd

namespace Trema.Management

open Library Table
open Messenger (sendReplyMessage CarriesAll Supported Contexts MessengerContext ReceiveQueueCallback getContext
  callMessageCallbacks functionsOf messengerRecvBuffer)

section Entries

variable {stats : Stats} {count : Bytes → Option Nat} {ops : List StatOperation} {key : Bytes}

-- The key that an operation counts under.
def StatOperation.name : StatOperation → Option Bytes
  | .add key => some (key.bytes.take 255)
  | .increment key => some key.bytes
  | .reset => none

theorem counted_named {count : Option Nat} {n : Nat} (h : ops.foldl (counterStep key) count = some n) :
    key ∈ ops.filterMap StatOperation.name ∨ count ≠ none := by
  induction ops generalizing count with
  | nil =>
    rw [List.foldl_nil] at h
    exact .inr (by rw [h]; simp)
  | cons op ops ih =>
    rcases ih h with hmem | hstep
    · exact .inl (List.mem_filterMap.mpr (by
        obtain ⟨op',hop',hname⟩ := List.mem_filterMap.mp hmem
        exact ⟨op',List.mem_cons_of_mem _ hop',hname⟩))
    · cases op with
      | add added =>
        rw [counterStep] at hstep
        split at hstep
        · rename_i hkey
          exact .inl (List.mem_filterMap.mpr ⟨.add added,List.mem_cons_self,by rw [StatOperation.name,hkey]⟩)
        · exact .inr hstep
      | increment counted =>
        rw [counterStep] at hstep
        split at hstep
        · rename_i hkey
          exact .inl (List.mem_filterMap.mpr ⟨.increment counted,List.mem_cons_self,by rw [StatOperation.name,hkey]⟩)
        · exact .inr hstep
      | reset => exact absurd rfl hstep

theorem Represents.mem_iff (h : Represents stats count) (key : Bytes) (value : UInt64) :
    (∃ e ∈ foreachHash stats, e.1 = key ∧ e.2.value = value) ↔ ∃ n, count key = some n ∧ value = UInt64.ofNat n := by
  have hcount := h.counted key
  constructor
  · rintro ⟨e,he,rfl,rfl⟩
    have hfind : lookupStat stats e.1 = some e.2 := lookup_of_mem_exact compareString_iff h.valid he
    rw [hfind] at hcount
    obtain ⟨n,hn,hvalue⟩ := Option.map_eq_some_iff.mp hcount.symm
    exact ⟨n,hn,hvalue.symm⟩
  · rintro ⟨n,hn,rfl⟩
    rw [hn] at hcount
    obtain ⟨entry,hfind,hvalue⟩ := Option.map_eq_some_iff.mp hcount
    exact ⟨(key,entry),mem_of_lookup_exact compareString_iff h.valid hfind,rfl,hvalue⟩

-- A history leaves no more entries than it has operations.
theorem entries_le (h : Represents stats fun k => ops.foldl (counterStep k) none) :
    (foreachHash stats).length ≤ ops.length := by
  have hsub : (foreachHash stats).map Prod.fst ⊆ ops.filterMap StatOperation.name := by
    intro k hk
    obtain ⟨e,he,rfl⟩ := List.mem_map.mp hk
    obtain ⟨n,hn,_⟩ := (h.mem_iff _ _).mp ⟨e,he,rfl,rfl⟩
    rcases counted_named hn with hmem | hnone
    · exact hmem
    · exact absurd rfl hnone
  have hle := ((keys_nodup_exact compareString_iff h.valid).subperm hsub).length_le
  rw [List.length_map] at hle
  exact hle.trans (List.length_filterMap_le _ _)

end Entries

section Lines

variable {l : List StatEntry} {front : Bytes}

theorem length_padded {key : Bytes} (h : key.length ≤ 255) : (padded key).length = statKeyLength := by
  rw [padded,List.length_append,List.length_replicate]
  simp only [statKeyLength]
  omega

-- The entries as the reply has them.
theorem statBytes_split (hsize : ∀ e ∈ l, e.key.length = statKeyLength) {i : Nat} (hi : i < l.length) :
    ∃ before after, l.flatMap statBytes = before ++ statBytes l[i] ++ after ∧ before.length = 264 * i := by
  induction l generalizing i with
  | nil => cases hi
  | cons e l ih =>
    cases i with
    | zero => exact ⟨[],l.flatMap statBytes,rfl,rfl⟩
    | succ i =>
      obtain ⟨before,after,hsplit,hlen⟩ := ih (fun e he => hsize e (List.mem_cons_of_mem _ he)) (Nat.lt_of_succ_lt_succ hi)
      refine ⟨statBytes e ++ before,after,?_,?_⟩
      · rw [List.flatMap_cons,hsplit,List.getElem_cons_succ]
        simp only [List.append_assoc]
      · rw [List.length_append,hlen,statBytes,List.length_append,hsize e List.mem_cons_self,length_toNet64]
        simp only [statKeyLength]
        omega

theorem statLine_read (hfront : front.length = 8) (hkeys : ∀ e ∈ l, ∃ key, e.key = padded key ∧ key.length ≤ 255 ∧ 0 ∉ key)
    {i : Nat} (hi : i < l.length) :
    statLine (front ++ l.flatMap statBytes) i = .ok (text l[i].key,l[i].value) := by
  have hsize : ∀ e ∈ l, e.key.length = statKeyLength := by
    intro e he
    obtain ⟨key,hkey,hshort,_⟩ := hkeys e he
    rw [hkey,length_padded hshort]
  obtain ⟨key,hkey,hshort,hnul⟩ := hkeys l[i] (List.getElem_mem hi)
  obtain ⟨before,after,hsplit,hlen⟩ := statBytes_split hsize hi
  have hplace : (front ++ before).length = 8 + 264 * i := by rw [List.length_append,hfront,hlen]
  have hdata : front ++ l.flatMap statBytes = front ++ before ++ (l[i].key ++ (toNet64 l[i].value ++ after)) := by
    rw [hsplit,statBytes]
    simp only [List.append_assoc]
  have hdrop : (front ++ l.flatMap statBytes).drop (8 + 264 * i) = l[i].key ++ (toNet64 l[i].value ++ after) := by
    rw [hdata,← hplace,List.drop_left]
  have hzero : 0 ∈ l[i].key := by
    rw [hkey,padded]
    refine List.mem_append_right _ (List.mem_replicate.mpr ⟨?_,rfl⟩)
    simp only [statKeyLength]
    omega
  have hstop : text (l[i].key ++ (toNet64 l[i].value ++ after)) = text l[i].key := by
    have hmore : List.replicate (statKeyLength - key.length) (0 : UInt8) =
        0 :: List.replicate (statKeyLength - key.length - 1) 0 := by
      rw [← List.replicate_succ]
      congr 1
      simp only [statKeyLength]
      omega
    rw [hkey,text_padded hnul hshort,text,padded,hmore,List.append_assoc,List.takeWhile_append_of_pos,List.cons_append,
      List.takeWhile_cons_of_neg,List.append_nil]
    · simp
    · intro b hb
      simpa using fun h : b = 0 => hnul (h ▸ hb)
  have hvalue : (net64 (front ++ l.flatMap statBytes) (8 + 264 * i + statKeyLength) : Run Empty UInt64) = .ok l[i].value := by
    have hat : (front ++ before ++ l[i].key).length = 8 + 264 * i + statKeyLength := by
      rw [List.length_append,hplace,hsize _ (List.getElem_mem hi)]
    have hwhole : front ++ l.flatMap statBytes = front ++ before ++ l[i].key ++ (toNet64 l[i].value ++ after) := by
      rw [hdata]
      simp only [List.append_assoc]
    have hslice : slice (front ++ before ++ l[i].key ++ (toNet64 l[i].value ++ after)) (front ++ before ++ l[i].key).length 8 =
        toNet64 l[i].value := by
      rw [slice_append_right _ le_rfl,Nat.sub_self,slice_append_left (by simp)]
      exact slice_whole (by simp)
    rw [hwhole,← hat,net64_inside (by simp; omega),be64,hslice,ofNat_beNat_toNet64]
  rw [statLine,stringAt,hdrop,if_pos (List.mem_append_left _ hzero),hstop,ok_bind,hvalue]
  rfl

theorem length_entries (hsize : ∀ e ∈ l, e.key.length = statKeyLength) : (l.flatMap statBytes).length = 264 * l.length := by
  induction l with
  | nil => rfl
  | cons e l ih =>
    rw [List.flatMap_cons,List.length_append,ih fun e he => hsize e (List.mem_cons_of_mem _ he),statBytes,
      List.length_append,hsize e List.mem_cons_self,length_toNet64,List.length_cons]
    simp only [statKeyLength]
    omega

end Lines

section Shown

variable {stats : Stats} {count : Bytes → Option Nat}

def lines (stats : Stats) : List (Bytes × UInt64) := (foreachStat stats).map fun e => (text e.key,e.value)

theorem Represents.lines_eq (h : Represents stats count) :
    lines stats = (foreachHash stats).map fun e => (e.1,e.2.value) := by
  rw [lines,foreachStat,List.map_map]
  refine List.map_congr_left fun e he => ?_
  obtain ⟨hkey,hshort,hnul⟩ := h.kept e he
  simp only [Function.comp_apply,hkey,text_padded hnul hshort]

-- How long the reply to a show_stats request is.
def replyLength (n : Nat) : Nat := if n ≤ nMaxEntries then 8 + 264 * n else 8

theorem stats_answered (h : Represents stats count) (level : Nat) (application : Bool) (clock : Option TimespecN)
    (hfew : (foreachHash stats).length < 2 ^ 32) :
    ∃ data, handleRequest ⟨level,stats,application⟩ clock messengerManagementRequest sendShowStatsRequest =
        .ok (⟨level,stats,application⟩,.reply data) ∧ data.length = replyLength (lines stats).length ∧
      showStatsReply messengerManagementReply data =
        .ok (if (lines stats).length ≤ nMaxEntries then .stats (lines stats) else .failed) := by
  have hlength : (foreachStat stats).length = (foreachHash stats).length := List.length_map _
  have hcount : (foreachStat stats).length % 2 ^ 32 = (foreachStat stats).length := Nat.mod_eq_of_lt (hlength ▸ hfew)
  have hlines : (lines stats).length = (foreachStat stats).length := List.length_map _
  have hsent : handleRequest ⟨level,stats,application⟩ clock messengerManagementRequest sendShowStatsRequest = (do
      let outcome ← handleShowStatsRequest ⟨level,stats,application⟩ sendShowStatsRequest
      pure (⟨level,stats,application⟩,outcome)) := by
    have hrun : handleRequest ⟨level,stats,application⟩ clock messengerManagementRequest
        (requestHeader managementShowStatsRequest 6 ++ []) = dispatch ⟨level,stats,application⟩ clock
          (requestHeader managementShowStatsRequest 6 ++ []) managementShowStatsRequest :=
      handleRequest_sent (by decide) (by simp [requestHeader])
    rw [List.append_nil] at hrun
    rw [sendShowStatsRequest,hrun,dispatch,if_neg (by decide),if_neg (by decide),if_pos rfl,
      if_neg (by simp [requestHeader])]
  have hchecked : checked sendShowStatsRequest managementShowStatsRequest (· = 6) = .ok () := by
    have hrun : checked (requestHeader managementShowStatsRequest 6 ++ []) managementShowStatsRequest (· = 6) = .ok () :=
      checked_header (by decide) (by decide)
    rw [List.append_nil] at hrun
    exact hrun
  have hkeys : ∀ e ∈ foreachStat stats, ∃ key, e.key = padded key ∧ key.length ≤ 255 ∧ 0 ∉ key := by
    intro e he
    obtain ⟨entry,hentry,rfl⟩ := List.mem_map.mp he
    exact ⟨entry.1,h.kept entry hentry⟩
  have hsize : ∀ e ∈ foreachStat stats, e.key.length = statKeyLength := by
    intro e he
    obtain ⟨key,hkey,hshort,_⟩ := hkeys e he
    rw [hkey,length_padded hshort]
  rw [hsent,handleShowStatsRequest,hchecked,ok_bind]
  simp only [hcount,lt_irrefl,if_false,hlines,replyLength]
  by_cases hmax : (foreachStat stats).length ≤ nMaxEntries
  · simp only [if_pos hmax]
    refine ⟨_,rfl,by rw [List.length_append,length_entries hsize]; simp [replyHeader],?_⟩
    have hbound : 8 + 264 * (foreachStat stats).length < 2 ^ 32 := by
      simp only [nMaxEntries] at hmax
      omega
    have hwhole : (replyHeader managementShowStatsReply managementRequestSucceeded
        (8 + 264 * (foreachStat stats).length) ++ (foreachStat stats).flatMap statBytes).length =
          8 + 264 * (foreachStat stats).length := by
      rw [List.length_append,length_entries hsize]
      simp [replyHeader]
    have hentries : (8 + 264 * (foreachStat stats).length - 8) % 2 ^ 32 / 264 = (foreachStat stats).length := by
      rw [Nat.mod_eq_of_lt (by omega)]
      omega
    have hread := mapM_range (foreachStat stats)
      (statLine (replyHeader managementShowStatsReply managementRequestSucceeded (8 + 264 * (foreachStat stats).length) ++
        (foreachStat stats).flatMap statBytes))
      (fun e => (text e.key,e.value)) fun i hi => statLine_read (by simp [replyHeader]) hkeys hi
    rw [showStatsReply,reply_status hbound (by rw [hwhole]; simp) hwhole,ok_bind,if_neg (by decide),hwhole,hentries]
    simp only [hread]
    rfl
  · simp only [if_neg hmax]
    refine ⟨_,rfl,by simp [replyHeader],?_⟩
    have hstatus : replyStatus messengerManagementReply
        (replyHeader managementShowStatsReply managementRequestFailed 8 ++ []) managementShowStatsReply true =
          .ok managementRequestFailed := reply_status (by decide) rfl (by simp [replyHeader])
    rw [List.append_nil] at hstatus
    have hfits : decide (8 ≤ (replyHeader managementShowStatsReply managementRequestFailed 8).length) = true := by
      simp [replyHeader]
    rw [showStatsReply,hfits,hstatus,ok_bind,if_pos rfl]
    rfl

-- The messenger takes the reply to the tool whole, and the tool's function has the reply's bytes.
structure ReplyPassedOn (data : Bytes) (heap : Nat → UInt8) (transactionId : UInt32) : Prop where
  carried : CarriesAll (· = sendReplyMessage heap transactionId messengerManagementReply data)
  called : ∀ (react : Messenger.Call Nat → List Nat) (callbacks : List ReceiveQueueCallback) (c : Contexts Nat)
    (context : MessengerContext Nat), Supported callbacks → getContext c transactionId = some context →
    (callMessageCallbacks react (sendReplyMessage heap transactionId messengerManagementReply data).pulled callbacks
        (sendReplyMessage heap transactionId messengerManagementReply data).data c).1 =
      (functionsOf callbacks .reply).map fun f =>
        .replied f messengerManagementReply data data.length context.userData

-- Sixteen bytes go in front of the reply, and the receiver takes a hundred thousand at a time.
theorem replyPassedOn_iff {data : Bytes} {n : Nat} (hlength : data.length = replyLength n) (heap : Nat → UInt8)
    (transactionId : UInt32) :
    ReplyPassedOn data heap transactionId ↔ 24 + 264 * n ≤ messengerRecvBuffer ∨ nMaxEntries < n := by
  have hentries : nMaxEntries = 1514 := rfl
  have hbuffer : messengerRecvBuffer = 100000 := rfl
  have hfits : data.length ≤ 399984 := by
    rw [hlength,replyLength]
    split <;> omega
  have hsmall : 16 + data.length ≤ messengerRecvBuffer ↔ 24 + 264 * n ≤ messengerRecvBuffer ∨ nMaxEntries < n := by
    rw [hlength,replyLength]
    split <;> omega
  rw [← hsmall,← @Messenger.carriesAll_reply heap transactionId messengerManagementReply data hfits]
  constructor
  · exact ReplyPassedOn.carried
  · intro hcarried
    exact ⟨hcarried,fun _ _ _ _ hc hcontext => Messenger.call_sendReplyMessage hc hcontext⟩

-- What is counted in any history is what show_stats prints, each key once.
theorem stats_shown (ops : List StatOperation) (hfew : ops.length < 2 ^ 32) :
    ((∃ op ∈ ops, ¬ op.Short) → runStats ops = .error .aborted) ∧
      ((∀ op ∈ ops, op.Short) → ∃ stats lines, runStats ops = .ok stats ∧
        (∀ key value, (key,value) ∈ lines ↔ ∃ n, counter ops key = some n ∧ value = UInt64.ofNat n) ∧
        (lines.map Prod.fst).Nodup ∧
        ∀ level application clock, ∃ data,
          handleRequest ⟨level,stats,application⟩ clock messengerManagementRequest sendShowStatsRequest =
            .ok (⟨level,stats,application⟩,.reply data) ∧
          (∀ heap transactionId, ReplyPassedOn data heap transactionId ↔
            24 + 264 * lines.length ≤ messengerRecvBuffer ∨ nMaxEntries < lines.length) ∧
          showStatsReply messengerManagementReply data =
            .ok (if lines.length ≤ nMaxEntries then .stats lines else .failed)) := by
  obtain ⟨hlong,hshort⟩ := represents_init.run ops
  refine ⟨hlong,fun hall => ?_⟩
  obtain ⟨stats,hrun,h⟩ := hshort hall
  have hlines := h.lines_eq
  refine ⟨stats,lines stats,hrun,fun key value => ?_,?_,fun level application clock => ?_⟩
  · rw [hlines]
    have hiff := h.mem_iff key value
    rw [← counter] at hiff
    rw [← hiff,List.mem_map]
    refine exists_congr fun e => and_congr_right fun _ => ?_
    rw [Prod.mk.injEq]
  · rw [hlines,List.map_map]
    exact keys_nodup_exact compareString_iff h.valid
  · obtain ⟨data,hanswer,hlength,hshown⟩ := stats_answered h level application clock ((entries_le h).trans_lt hfew)
    exact ⟨data,hanswer,fun heap transactionId => replyPassedOn_iff hlength heap transactionId,hshown⟩

-- The key is counted twice, and the reply comes to the tool.
theorem stats_shown_hello : ∃ (stats : Stats) (data : Bytes) (lines : List (Bytes × UInt64)),
    runStats [.increment ⟨[104,105],by decide⟩,.increment ⟨[104,105],by decide⟩] = .ok stats ∧
    handleRequest ⟨6,stats,false⟩ none messengerManagementRequest sendShowStatsRequest =
      .ok (⟨6,stats,false⟩,.reply data) ∧
    ReplyPassedOn data (fun _ => 0) 5 ∧ showStatsReply messengerManagementReply data = .ok (.stats lines) ∧
    (([104,105],2) : Bytes × UInt64) ∈ lines := by
  obtain ⟨_,hall⟩ := stats_shown [.increment ⟨[104,105],by decide⟩,.increment ⟨[104,105],by decide⟩] (by decide)
  obtain ⟨stats,lines,hrun,hmem,hnodup,hanswered⟩ := hall (by simp [StatOperation.Short])
  obtain ⟨data,hanswer,hpassed,hshown⟩ := hanswered 6 false none
  have hkeys : ∀ key ∈ lines.map Prod.fst, key = [104,105] := by
    intro key hkey
    obtain ⟨⟨key',value⟩,hline,rfl⟩ := List.mem_map.mp hkey
    obtain ⟨n,hn,_⟩ := (hmem key' value).mp hline
    by_contra hother
    simp [counter,counterStep,Ne.symm hother] at hn
  have hfew : lines.length ≤ 1 := by
    have hsame := List.eq_replicate_iff.mpr ⟨rfl,hkeys⟩
    rw [hsame,List.nodup_replicate,List.length_map] at hnodup
    exact hnodup
  have hentries : nMaxEntries = 1514 := rfl
  have hbuffer : messengerRecvBuffer = 100000 := rfl
  rw [if_pos (by omega)] at hshown
  exact ⟨stats,data,lines,hrun,hanswer,(hpassed _ _).mpr (.inl (by omega)),hshown,(hmem _ _).mpr ⟨2,by decide,rfl⟩⟩

end Shown

end Trema.Management
