import Trema.Startup.ParseArgv
import Mathlib.Data.List.Perm.Subperm
import Mathlib.Data.List.Nodup

namespace Trema.Startup

open Library Getopt

section Lists

variable {n : Nat} {ds : List Nat}

theorem filter_prefix_iff {l : List Nat} (hl : l.Pairwise (· < ·)) (p q : Nat → Bool) :
    l.filter p <+: l.filter q ↔ ∀ j ∈ l, ∀ m ∈ l, j ≤ m → p m = true → p j = q j := by
  induction l with
  | nil => simp
  | cons x l ih =>
    obtain ⟨hx,hl⟩ := List.pairwise_cons.mp hl
    have hnot : x ∉ l := fun h => Nat.lt_irrefl x (hx x h)
    -- the tail's question is the whole one as soon as both agree on `x`
    have htail : p x = q x → ((∀ j ∈ x :: l, ∀ m ∈ x :: l, j ≤ m → p m = true → p j = q j) ↔
        ∀ j ∈ l, ∀ m ∈ l, j ≤ m → p m = true → p j = q j) := by
      intro hsame
      constructor
      · exact fun h j hj m hm => h j (List.mem_cons_of_mem x hj) m (List.mem_cons_of_mem x hm)
      · intro h j hj m hm hle hpm
        rcases List.mem_cons.mp hj with hj' | hj'
        · rw [hj',hsame]
        · rcases List.mem_cons.mp hm with hm' | hm'
          · exact absurd (hx j hj') (Nat.not_lt.mpr (hm' ▸ hle))
          · exact h j hj' m hm' hle hpm
    cases hp : p x with
    | true =>
      cases hq : q x with
      | true =>
        rw [List.filter_cons_of_pos hp,List.filter_cons_of_pos hq,List.cons_prefix_cons,
          htail (hp.trans hq.symm),← ih hl]
        exact and_iff_right rfl
      | false =>
        rw [List.filter_cons_of_pos hp,List.filter_cons_of_neg (by simp [hq])]
        constructor
        · intro h
          exact absurd (List.mem_filter.mp (h.subset List.mem_cons_self)).1 hnot
        · intro h
          have hbad := h x List.mem_cons_self x List.mem_cons_self le_rfl hp
          rw [hp,hq] at hbad
          cases hbad
    | false =>
      rw [List.filter_cons_of_neg (by simp [hp])]
      cases hq : q x with
      | true =>
        rw [List.filter_cons_of_pos hq]
        have hempty : l.filter p <+: x :: l.filter q ↔ l.filter p = [] := by
          constructor
          · intro h
            cases hfilter : l.filter p with
            | nil => rfl
            | cons y ys =>
              rw [hfilter] at h
              obtain ⟨rfl,_⟩ := List.cons_prefix_cons.mp h
              have hmem : y ∈ l.filter p := by
                rw [hfilter]
                exact List.mem_cons_self
              exact absurd (List.mem_filter.mp hmem).1 hnot
          · intro h
            rw [h]
            exact List.nil_prefix
        rw [hempty,List.filter_eq_nil_iff]
        constructor
        · intro h j _ m hm _ hpm
          rcases List.mem_cons.mp hm with rfl | hm
          · rw [hp] at hpm
            cases hpm
          · exact absurd hpm (h m hm)
        · intro h m hm hpm
          have hbad := h x List.mem_cons_self m (List.mem_cons_of_mem x hm) (hx m hm).le hpm
          rw [hp,hq] at hbad
          cases hbad
      | false =>
        rw [List.filter_cons_of_neg (by simp [hq]),htail (hp.trans hq.symm)]
        exact ih hl

theorem length_occupied_add (n : Nat) (ds : List Nat) :
    ((List.range n).filter (· ∈ ds)).length + (kept n ds).length = n := by
  have hsplit := (List.range n).length_eq_length_filter_add fun x => decide (x ∈ ds)
  rw [List.length_range] at hsplit
  rw [kept]
  simpa using hsplit.symm

theorem length_filter_le (n : Nat) (ds : List Nat) : ((List.range n).filter (· ∈ ds)).length ≤ ds.length := by
  have hnodup : ((List.range n).filter (· ∈ ds)).Nodup := List.nodup_range.filter _
  refine (hnodup.subperm fun x hx => ?_).length_le
  simpa using (List.mem_filter.mp hx).2

theorem nodup_of_counted (h : ds.length = ((List.range n).filter (· ∈ ds)).length) :
    ds.Nodup := by
  have hnodup : ((List.range n).filter (· ∈ ds)).Nodup := List.nodup_range.filter _
  have hsub : (List.range n).filter (· ∈ ds) ⊆ ds := fun x hx => by simpa using (List.mem_filter.mp hx).2
  have hperm := (hnodup.subperm hsub).perm_of_length_le h.le
  exact hperm.nodup_iff.mp hnodup

theorem counted_of_nodup (hin : ∀ x ∈ ds, x < n) (h : ds.Nodup) :
    ds.length = ((List.range n).filter (· ∈ ds)).length := by
  refine le_antisymm ((h.subperm fun x hx => ?_).length_le) (length_filter_le n ds)
  exact List.mem_filter.mpr ⟨List.mem_range.mpr (hin x hx),by simpa using hx⟩

theorem forall_of_prefix {α : Type} {p : α → Prop} {l : List α}
    (h : ∀ pre x post, l = pre ++ x :: post → (∀ y ∈ pre, p y) → p x) : ∀ x ∈ l, p x := by
  have hall : ∀ pre post, l = pre ++ post → (∀ y ∈ pre, p y) → ∀ x ∈ post, p x := by
    intro pre post
    induction post generalizing pre with
    | nil => simp
    | cons x post ih =>
      intro hl hpre y hy
      have hx := h pre x post hl hpre
      rcases List.mem_cons.mp hy with rfl | hy
      · exact hx
      · refine ih (pre ++ [x]) (by rw [hl,List.append_assoc]; rfl) (fun z hz => ?_) y hy
        rcases List.mem_append.mp hz with hz | hz
        · exact hpre z hz
        · exact List.mem_singleton.mp hz ▸ hx
  exact hall [] l rfl (by simp)

end Lists

structure LeavesRest (n : Nat) (occ : List Nat) (r : List (Option Nat) × Int) : Prop where
  argc : r.2 = (kept n occ).length
  argv : r.1.take (kept n occ).length = (kept n occ).map some
  name : r.1.head? = some (some 0)
  null : r.1[(kept n occ).length]? = some none

-- As many places are taken out as the standard options have, and the same ones as far as the last
-- argument that is not theirs.
structure Balanced (n : Nat) (occ ds : List Nat) : Prop where
  count : ds.length = ((List.range n).filter (· ∈ occ)).length
  agree : ∀ j m, j ≤ m → m < n → m ∉ occ → (j ∈ ds ↔ j ∈ occ)

section Compacting

variable {ε : Type} {n : Nat} {occ ds argv : List Nat}

theorem agree_iff : (∀ j m, j ≤ m → m < n → m ∉ occ → (j ∈ ds ↔ j ∈ occ)) ↔ kept n occ <+: kept n ds := by
  rw [kept,kept,filter_prefix_iff List.pairwise_lt_range]
  constructor
  · intro h j _ m hm hle hkept
    have hboth := h j m hle (List.mem_range.mp hm) (by simpa using hkept)
    simp [hboth]
  · intro h j m hle hm hkept
    have hboth := h j (List.mem_range.mpr (by omega)) m (List.mem_range.mpr hm) hle (by simpa using hkept)
    have hsame : j ∈ occ ↔ j ∈ ds := by simpa using hboth
    exact hsame.symm

-- The array that compact leaves, before argc_tmp is looked at.
def packed (n : Nat) (ds argv : List Nat) : List (Option Nat) :=
  (kept n ds).map some ++ (argv.map some ++ [none]).drop (kept n ds).length

theorem length_packed (hargv : argv.length = n) : (packed n ds argv).length = n + 1 := by
  have hadds := length_occupied_add n ds
  simp only [packed,List.length_append,List.length_map,List.length_drop,List.length_cons,
    List.length_nil,hargv]
  omega

theorem compact_shown (hargv : argv.length = n) :
    compact argv ⟨shown n ds,n - ds.length⟩ = (if ds.length ≤ n then
      .ok (if ds = [] then packed n ds argv else (packed n ds argv).set (n - ds.length) none,
        (n : Int) - ds.length)
      else .error .outOfBounds : Run ε _) := by
  rw [compact,kept_shown,hargv]
  cases ds with
  | nil => simp [packed]
  | cons d ds =>
    have hlt : (n : Int) - (d :: ds).length < n := by
      rw [List.length_cons]
      omega
    simp only [if_pos hlt]
    by_cases hle : (d :: ds).length ≤ n
    · have hnat : ((n : Int) - (d :: ds).length).toNat = n - (d :: ds).length := by omega
      rw [if_pos (by omega),if_pos hle,hnat,if_neg (List.cons_ne_nil d ds)]
      rfl
    · rw [if_neg (by omega),if_neg hle]

theorem take_packed {k : Nat} (hk : k ≤ (kept n ds).length) :
    (packed n ds argv).take k = ((kept n ds).take k).map some := by
  rw [packed,List.take_append_of_le_length (by rw [List.length_map]; exact hk),List.map_take]

theorem leaves_rest_iff (hargv : argv.length = n) (hpos : 0 < n) (hzero : 0 ∉ occ) :
    (∃ r, compact argv ⟨shown n ds,n - ds.length⟩ = (.ok r : Run ε _) ∧ LeavesRest n occ r) ↔
      Balanced n occ ds := by
  have hadd := length_occupied_add n occ
  have hadds := length_occupied_add n ds
  have hle := length_filter_le n ds
  have hfirst : (kept n occ).head? = some 0 := by
    obtain ⟨n,rfl⟩ : ∃ k, n = k + 1 := ⟨n - 1,by omega⟩
    rw [kept,List.range_succ_eq_map,List.filter_cons_of_pos (by simpa using hzero)]
    rfl
  rw [compact_shown hargv]
  constructor
  · rintro ⟨r,hr,hrest⟩
    split at hr
    · rename_i hfits
      cases hr
      have hargc := hrest.argc
      simp only at hargc
      have hcount : ds.length = ((List.range n).filter (· ∈ occ)).length := by omega
      refine ⟨hcount,agree_iff.mpr ?_⟩
      have hargv := hrest.argv
      have htake : (packed n ds argv).take (kept n occ).length = (kept n occ).map some := by
        rw [← hargv]
        split
        · rfl
        · rw [List.take_set_of_le (by omega)]
      rw [take_packed (by omega)] at htake
      have hsame := List.map_injective_iff.mpr (Option.some_injective Nat) htake
      exact hsame ▸ List.take_prefix _ _
    · cases hr
  · intro h
    have hfront := agree_iff.mp h.agree
    have hcount := h.count
    have hfits : ds.length ≤ n := by omega
    rw [if_pos hfits]
    refine ⟨_,rfl,?_⟩
    have htake : (packed n ds argv).take (kept n occ).length = (kept n occ).map some := by
      rw [take_packed hfront.length_le,← List.prefix_iff_eq_take.mp hfront]
    have harray : (if ds = [] then packed n ds argv
        else (packed n ds argv).set (n - ds.length) none).take (kept n occ).length =
          (kept n occ).map some := by
      rw [← htake]
      split
      · rfl
      · rw [List.take_set_of_le (by omega)]
    refine ⟨by simp only; omega,harray,?_,?_⟩
    · have hhead := congrArg List.head? harray
      have hkept : (kept n occ).length ≠ 0 := by
        intro hnil
        rw [List.length_eq_zero_iff.mp hnil] at hfirst
        cases hfirst
      rw [List.head?_take,if_neg hkept,List.head?_map,hfirst] at hhead
      exact hhead
    · have hlen : (packed n ds argv).length = n + 1 := length_packed hargv
      have hlast : n - ds.length = (kept n occ).length := by omega
      split
      · rename_i hnil
        subst hnil
        have hall : (kept n occ).length = n := by simpa using hlast.symm
        have hrange : kept n [] = List.range n := by simp [kept]
        have hdrop : (argv.map some ++ [none]).drop n = [none] :=
          List.drop_left' (by rw [List.length_map,hargv])
        rw [hall,packed,hrange,List.length_range,hdrop,
          List.getElem?_append_right (by rw [List.length_map,List.length_range]),List.length_map,
          List.length_range,Nat.sub_self]
        rfl
      · rw [hlast]
        exact List.getElem?_set_self (by omega)

end Compacting

section Plainness

variable {args : List Arg} {os : List Found}

theorem occupied_ge {f : Found} {x : Nat} (hx : x ∈ occupied f) : f.slot ≤ x ∧ x ≤ f.slot + 1 := by
  unfold occupied at hx
  split at hx
  · simp only [List.mem_cons,List.not_mem_nil,or_false] at hx
    omega
  · simp only [List.mem_cons,List.not_mem_nil,or_false] at hx
    omega

theorem slot_occupied (f : Found) : f.slot ∈ occupied f := by
  unfold occupied
  split
  · exact List.mem_cons_self
  · exact List.mem_cons_self

theorem occupied_lt {f : Found} {n : Nat} (hf : f.Placed 1 n) {x : Nat} (hx : x ∈ occupied f) : x < n := by
  have hinside := hf.inside
  have hends := hf.ends
  unfold occupied at hx
  split at hx
  · simp only [List.mem_cons,List.not_mem_nil,or_false] at hx
    omega
  · simp only [List.mem_cons,List.not_mem_nil,or_false] at hx
    omega

-- A plain option takes out its own places, each of them once.
theorem Plain.dropped_eq {f : Found} (hf : f.Placed 1 args.length) (h : Plain args f) :
    (dropped args f).Perm (occupied f) ∧ ∀ x ∈ occupied f, x < f.optind := by
  have hadvanced := hf.advanced
  have hshort := hf.short
  have hstarted := hf.started
  unfold Plain at h
  unfold dropped occupied
  by_cases hvalued : f.answer.valued = true
  · rw [if_pos hvalued] at h
    have hadvanced := hadvanced hvalued
    by_cases hequals : '=' ∈ textAt args (f.optind - 1)
    · have hone := h.mp hequals
      rw [if_neg (by simp [hequals]),if_neg (by omega),hone]
      refine ⟨.refl _,fun x hx => ?_⟩
      rw [List.mem_singleton.mp hx]
      omega
    · have htwo : f.optind = f.slot + 2 := by
        have hnot : f.optind ≠ f.slot + 1 := fun hone => hequals (h.mpr hone)
        omega
      rw [if_pos ⟨hvalued,hequals⟩,if_pos htwo,htwo]
      refine ⟨List.Perm.swap _ _ _,fun x hx => ?_⟩
      simp only [List.mem_cons,List.not_mem_nil,or_false] at hx
      omega
  · rw [if_neg hvalued] at h
    rw [if_neg (by simp [hvalued]),if_neg (by omega),h]
    refine ⟨.refl _,fun x hx => ?_⟩
    rw [List.mem_singleton.mp hx]
    omega

theorem balanced_of_plain (hplaced : ∀ f ∈ os, f.Placed 1 args.length)
    (hordered : os.Pairwise fun f f' => f.optind ≤ f'.slot) (hplain : ∀ f ∈ os, Plain args f) :
    Balanced args.length (os.flatMap occupied) (os.flatMap (dropped args)) := by
  have hperm : (os.flatMap (dropped args)).Perm (os.flatMap occupied) :=
    List.Perm.flatMap_left os fun f hf => ((hplain f hf).dropped_eq (hplaced f hf)).1
  refine ⟨?_,fun j m _ _ _ => hperm.mem_iff⟩
  rw [hperm.length_eq]
  refine counted_of_nodup ?_ (List.nodup_flatMap.mpr ⟨?_,?_⟩)
  · intro x hx
    obtain ⟨f,hf,hx⟩ := List.mem_flatMap.mp hx
    exact occupied_lt (hplaced f hf) hx
  · intro f _
    unfold occupied
    split <;> simp
  · refine hordered.imp_of_mem fun {f f'} hf _ hle x hx hx' => ?_
    have hlt := ((hplain f hf).dropped_eq (hplaced f hf)).2 x hx
    have hge := (occupied_ge hx').1
    omega

theorem plain_of_balanced (hplaced : ∀ f ∈ os, f.Placed 1 args.length)
    (hordered : os.Pairwise fun f f' => f.optind ≤ f'.slot) (hpos : 0 < args.length)
    (hlast : args.length - 1 ∉ os.flatMap occupied)
    (h : Balanced args.length (os.flatMap occupied) (os.flatMap (dropped args))) :
    ∀ f ∈ os, Plain args f := by
  have hagree : ∀ j, j < args.length → (j ∈ os.flatMap (dropped args) ↔ j ∈ os.flatMap occupied) :=
    fun j hj => h.agree j (args.length - 1) (by omega) (by omega) hlast
  have hnodup : (os.flatMap (dropped args)).Nodup := by
    refine nodup_of_counted (h.count.trans (congrArg List.length (List.filter_congr fun j hj => ?_)))
    simp only [hagree j (List.mem_range.mp hj)]
  apply forall_of_prefix
  rintro pre f post rfl hpre
  have hf := hplaced f (by simp)
  have hfirst := hf.from_first
  have hstarted := hf.started
  have hshort := hf.short
  have hinside := hf.inside
  obtain ⟨_,htail,hbefore⟩ := List.pairwise_append.mp hordered
  have hafter := (List.pairwise_cons.mp htail).1
  -- the place before the option belongs to an option already met, which has taken it out
  have htwice : f.slot - 1 ∈ dropped args f → False := by
    intro hmem
    have hall : f.slot - 1 ∈ (pre ++ f :: post).flatMap occupied :=
      (hagree _ (by omega)).mp (List.mem_flatMap.mpr ⟨f,by simp,hmem⟩)
    obtain ⟨f',hf',hocc⟩ := List.mem_flatMap.mp hall
    have hge := occupied_ge hocc
    rcases List.mem_append.mp hf' with hin | hin
    · have hdrop : f.slot - 1 ∈ dropped args f' :=
        ((hpre f' hin).dropped_eq (hplaced f' hf')).1.mem_iff.mpr hocc
      rw [List.flatMap_append,List.flatMap_cons] at hnodup
      have hdisjoint := (List.nodup_append.mp hnodup).2.2
      exact hdisjoint _ (List.mem_flatMap.mpr ⟨f',hin,hdrop⟩) _ (List.mem_append_left _ hmem) rfl
    · rcases List.mem_cons.mp hin with rfl | hin
      · omega
      · have hle := hafter f' hin
        omega
  unfold Plain
  by_cases hvalued : f.answer.valued = true
  · have hadvanced := hf.advanced hvalued
    rw [if_pos hvalued]
    constructor
    · intro hequals
      by_contra hne
      have hdropped : dropped args f = [f.slot + 1] := by
        have htwo : f.optind = f.slot + 2 := by omega
        rw [dropped,if_neg (by simp [hequals]),htwo]
        rfl
      have hmine : f.slot ∈ (pre ++ f :: post).flatMap (dropped args) :=
        (hagree _ hinside).mpr (List.mem_flatMap.mpr ⟨f,by simp,slot_occupied f⟩)
      obtain ⟨f',hf',hdrop⟩ := List.mem_flatMap.mp hmine
      rcases List.mem_append.mp hf' with hin | hin
      · have hlt := dropped_lt (hplaced f' hf') (hbefore f' hin f List.mem_cons_self) hdrop
        omega
      · rcases List.mem_cons.mp hin with rfl | hin
        · rw [hdropped,List.mem_singleton] at hdrop
          omega
        · have hle := hafter f' hin
          have hf'' := hplaced f' hf'
          have hstarted' := hf''.started
          unfold dropped at hdrop
          split at hdrop
          · rename_i hboth
            have hadvanced' := hf''.advanced hboth.1
            simp only [List.mem_cons,List.not_mem_nil,or_false] at hdrop
            omega
          · simp only [List.mem_cons,List.not_mem_nil,or_false] at hdrop
            omega
    · intro hone
      by_contra hequals
      apply htwice
      rw [dropped,if_pos ⟨hvalued,hequals⟩,hone]
      simp
  · rw [if_neg hvalued]
    by_contra hne
    apply htwice
    have hzero : f.optind = f.slot := by
      have halone := hf.alone
      by_contra hmore
      exact hvalued (halone (by omega))
    rw [dropped,if_neg (by simp [hvalued]),hzero]
    simp

end Plainness

section Whole

variable {ε σ : Type} (o : Options) {args : List Arg} (cases : List Char)
  (effect : σ → Char → Option Arg → Run ε σ) (settings : σ) {fuel : Nat}

theorem scan_of_args (hpos : 0 < args.length) :
    (∀ f ∈ scan o 1 false (args.drop 1), f.Placed 1 args.length) ∧
      (scan o 1 false (args.drop 1)).Pairwise fun f f' => f.optind ≤ f'.slot :=
  scan_placed (args.drop 1) false (by rw [List.length_drop]; omega)

theorem standardOptions_placed (hpos : 0 < args.length) :
    (∀ f ∈ standardOptions o cases args, f.Placed 1 args.length) ∧
      (standardOptions o cases args).Pairwise fun f f' => f.optind ≤ f'.slot := by
  obtain ⟨hplaced,hordered⟩ := scan_of_args o hpos
  exact ⟨fun f hf => hplaced f (List.mem_of_mem_filter hf),hordered.sublist List.filter_sublist⟩

theorem parseArgvWith_eq (hpos : 0 < args.length) (hfuel : (args.map List.length).sum < fuel) :
    ∃ argv : List Nat, argv.length = args.length ∧ parseArgvWith o args cases effect settings fuel =
      (do let settings ← (standardOptions o cases args).foldlM (applied effect) settings
          let out ← compact argv ⟨shown args.length ((standardOptions o cases args).flatMap (dropped args)),
            args.length - ((standardOptions o cases args).flatMap (dropped args)).length⟩
          pure (settings,out)) := by
  have htexts : (List.range args.length).map (textAt args) = args := by
    refine List.ext_getElem (by simp) fun i _ hi => ?_
    simp [textAt,List.getElem?_eq_getElem hi]
  have hslots : (⟨(List.range args.length).map some,args.length⟩ : Slots) =
      ⟨shown args.length [],args.length - ([] : List Nat).length⟩ := by
    simp [shown]
  have hsum : ((args.drop 1).map List.length).sum ≤ (args.map List.length).sum := by
    cases args with
    | nil => exact le_rfl
    | cons a rest =>
      rw [List.map_cons,List.sum_cons]
      exact Nat.le_add_left _ _
  have hscan : (scan o 1 false (((List.range args.length).map (textAt args)).drop 1)).length < fuel := by
    have hshort := length_scan o 1 false (args.drop 1)
    rw [htexts]
    omega
  obtain ⟨hplaced,hordered⟩ := scan_of_args o hpos
  obtain ⟨g,hlen,hrun⟩ := eachOption_scan o (textAt args) (handle args cases effect)
    (show 1 ≤ (List.range args.length).length by rw [List.length_range]; exact hpos)
    (settings,⟨(List.range args.length).map some,args.length⟩) hscan
  rw [htexts,hslots,handle_all hplaced hordered (by simp)] at hrun
  refine ⟨g.argv,hlen.trans List.length_range,?_⟩
  simp only [parseArgvWith,hslots,hrun]
  cases hsettings : (standardOptions o cases args).foldlM (applied effect) settings with
  | error e =>
    simp only [standardOptions] at hsettings
    simp only [hsettings]
    rfl
  | ok t =>
    simp only [standardOptions] at hsettings ⊢
    simp only [hsettings,ok_bind,List.nil_append]
    rfl

theorem foldlM_accepted {os : List Found} (h : ∀ f ∈ os, ∀ s, ∃ t, applied effect s f = .ok t) :
    ∃ t, os.foldlM (applied effect) settings = .ok t := by
  induction os generalizing settings with
  | nil => exact ⟨settings,rfl⟩
  | cons f os ih =>
    obtain ⟨t,ht⟩ := h f (by simp) settings
    rw [List.foldlM_cons,ht]
    exact ih t fun f' hf' => h f' (by simp [hf'])

-- Where every option lets the code go on, it leaves the rest exactly when the places balance.
theorem parseArgvWith_leaves_iff (hpos : 0 < args.length) (hfuel : (args.map List.length).sum < fuel)
    (haccepted : ∀ f ∈ standardOptions o cases args, ∀ s, ∃ t, applied effect s f = .ok t) :
    (∃ s r, parseArgvWith o args cases effect settings fuel = .ok (s,r) ∧
        LeavesRest args.length ((standardOptions o cases args).flatMap occupied) r) ↔
      Balanced args.length ((standardOptions o cases args).flatMap occupied)
        ((standardOptions o cases args).flatMap (dropped args)) := by
  obtain ⟨argv,hargv,hrun⟩ := parseArgvWith_eq o cases effect settings hpos hfuel
  obtain ⟨t,ht⟩ := foldlM_accepted effect settings haccepted
  have hzero : 0 ∉ (standardOptions o cases args).flatMap occupied := by
    intro hmem
    obtain ⟨f,hf,hocc⟩ := List.mem_flatMap.mp hmem
    have hfirst := ((standardOptions_placed o cases hpos).1 f hf).from_first
    have hge := (occupied_ge hocc).1
    omega
  rw [← leaves_rest_iff (ε := ε) hargv hpos hzero,hrun,ht]
  constructor
  · rintro ⟨s,r,hout,hrest⟩
    rw [ok_bind] at hout
    obtain ⟨r',hcompact,hpair⟩ := bind_eq_ok.mp hout
    cases hpair
    exact ⟨r,hcompact,hrest⟩
  · rintro ⟨r,hcompact,hrest⟩
    exact ⟨t,r,by rw [ok_bind,hcompact]; rfl,hrest⟩

end Whole

end Trema.Startup
