import Trema.Library.Getopt

namespace Trema.Library.Getopt

section Simulation

variable {π : Type} {o : Options} {text : π → Arg} {args : List Arg} {g : State π}

-- What getopt has not come to yet stands where it stood at the start.
structure Follows (text : π → Arg) (args : List Arg) (g : State π) : Prop where
  sized : g.argv.length = args.length
  ahead : (g.argv.drop g.optind).map text = args.drop g.optind
  inside : g.optind ≤ args.length

structure Ranged (g : State π) : Prop where
  nonopts : g.firstNonopt ≤ g.lastNonopt
  passed : g.lastNonopt ≤ g.optind

-- The answers that are still to come.
def pending (o : Options) (args : List Arg) (g : State π) : List Found :=
  match g.nextchar with
  | [] => scan o g.optind false (args.drop g.optind)
  | cs => (cluster o g.optind (args.drop (g.optind + 1)).head? cs).1 ++
      scan o (g.optind + 1) (cluster o g.optind (args.drop (g.optind + 1)).head? cs).2
        (args.drop (g.optind + 1))

theorem Follows.start (text : π → Arg) {argv : List π} (hpos : 1 ≤ argv.length) :
    Follows text (argv.map text) (start argv) ∧ Ranged (Getopt.start argv) :=
  ⟨⟨(List.length_map _).symm,List.map_drop,hpos.trans_eq (List.length_map _).symm⟩,le_rfl,le_rfl⟩

theorem Follows.lookup (h : Follows text args g) {i : Nat} (hi : g.optind ≤ i) :
    (g.argv[i]?).map text = args[i]? := by
  have hahead := congrArg (·[i - g.optind]?) h.ahead
  simp only [List.getElem?_map,List.getElem?_drop,Nat.add_sub_cancel' hi] at hahead
  exact hahead

theorem Follows.advance (h : Follows text args g) {k : Nat} (hk : g.optind + k ≤ args.length)
    (f l : Nat) (cs : Arg) : Follows text args ⟨g.argv,g.optind + k,f,l,cs⟩ where
  sized := h.sized
  ahead := by
    have hahead := congrArg (List.drop k) h.ahead
    rwa [← List.map_drop,List.drop_drop,List.drop_drop] at hahead
  inside := hk

theorem length_exchange (hr : Ranged g) (hi : g.optind ≤ g.argv.length) :
    (exchange g).argv.length = g.argv.length := by
  have hn := hr.nonopts
  have hp := hr.passed
  simp only [exchange,List.length_append,List.length_take,List.length_drop]
  omega

theorem Follows.exchange (h : Follows text args g) (hr : Ranged g) : Follows text args (exchange g) := by
  have hn := hr.nonopts
  have hp := hr.passed
  have hi := h.inside
  have hsized := h.sized
  refine ⟨?_,?_,hi⟩
  · rw [length_exchange hr (by omega),hsized]
  · have hfront : (g.argv.take g.firstNonopt ++ ((g.argv.take g.optind).drop g.lastNonopt ++
        (g.argv.take g.lastNonopt).drop g.firstNonopt)).length = g.optind := by
      simp only [List.length_append,List.length_take,List.length_drop]
      omega
    refine Eq.trans (congrArg (List.map text) ?_) h.ahead
    simp only [Getopt.exchange]
    rw [← List.append_assoc _ _ (g.argv.drop g.optind),← List.append_assoc]
    exact List.drop_left' hfront

theorem Follows.settle (h : Follows text args g) (hr : Ranged g) :
    Follows text args (settle g) ∧ (settle g).firstNonopt ≤ (settle g).optind ∧
      (settle g).optind = g.optind ∧ (settle g).nextchar = g.nextchar := by
  have hn := hr.nonopts
  have hp := hr.passed
  unfold Getopt.settle
  split
  · exact ⟨h.exchange hr,by simp only [Getopt.exchange]; omega,rfl,rfl⟩
  · split
    · exact ⟨⟨h.sized,h.ahead,h.inside⟩,le_rfl,rfl,rfl⟩
    · exact ⟨h,by omega,rfl,rfl⟩

theorem scan_nonoptions (o : Options) (i : Nat) (args : List Arg) :
    scan o i false args = scan o (i + (args.takeWhile nonoption).length) false
      (args.dropWhile nonoption) := by
  induction args generalizing i with
  | nil => rfl
  | cons a rest ih =>
    by_cases ha : nonoption a = true
    · rw [List.takeWhile_cons_of_pos ha,List.dropWhile_cons_of_pos ha,List.length_cons]
      simp only [scan]
      rw [if_pos ha,ih,Nat.add_assoc,Nat.add_comm 1]
    · rw [List.takeWhile_cons_of_neg ha,List.dropWhile_cons_of_neg ha]
      rfl

theorem Follows.skip (h : Follows text args g) (hfirst : g.firstNonopt ≤ g.optind) :
    Follows text args (skip text g) ∧ Ranged (skip text g) ∧
      args.drop (skip text g).optind = (args.drop g.optind).dropWhile nonoption ∧
      scan o g.optind false (args.drop g.optind) =
        scan o (skip text g).optind false (args.drop (skip text g).optind) := by
  have hcount : ((g.argv.drop g.optind).takeWhile fun p => nonoption (text p)).length =
      ((args.drop g.optind).takeWhile nonoption).length := by
    rw [← h.ahead,List.takeWhile_map,List.length_map]
    rfl
  have hle : ((args.drop g.optind).takeWhile nonoption).length ≤ (args.drop g.optind).length :=
    (List.takeWhile_sublist _).length_le
  have hi := h.inside
  rw [List.length_drop] at hle
  have hrest : args.drop (g.optind + ((args.drop g.optind).takeWhile nonoption).length) =
      (args.drop g.optind).dropWhile nonoption := by
    have hsplit : (args.drop g.optind).takeWhile nonoption ++ (args.drop g.optind).dropWhile nonoption =
        args.drop g.optind := List.takeWhile_append_dropWhile
    rw [← List.drop_drop]
    exact (congrArg (List.drop _) hsplit.symm).trans (List.drop_left' rfl)
  unfold Getopt.skip
  simp only [hcount]
  refine ⟨h.advance (by omega) _ _ _,⟨by simp only; omega,le_rfl⟩,hrest,?_⟩
  rw [hrest]
  exact scan_nonoptions o _ _

theorem rest_of_option {a : Arg} (h : ¬ nonoption a = true) : a.drop 1 ≠ [] := by
  intro hnil
  apply h
  cases a with
  | nil => rfl
  | cons c more =>
    have hmore : more = [] := hnil
    subst hmore
    by_cases hdash : c = '-'
    · subst hdash
      rfl
    · simp [nonoption,hdash]

theorem shortStep_pending (h : Follows text args g) (hr : Ranged g) (hi : g.optind < args.length)
    (hc : g.nextchar ≠ []) : ∃ f g', pending o args g = f :: pending o args g' ∧
      shortStep o text g = (some f.answer,g') ∧ g'.optind = f.optind ∧ Follows text args g' ∧
      Ranged g' ∧ (g'.nextchar ≠ [] → g'.optind < args.length) := by
  have hstay := h.advance (k := 0) h.inside g.firstNonopt g.lastNonopt
  have hone := h.advance (k := 1) hi g.firstNonopt g.lastNonopt
  have hnext := h.lookup (Nat.le_succ g.optind)
  have hn := hr.nonopts
  have hp := hr.passed
  have hhead : (args.drop (g.optind + 1)).head? = args[g.optind + 1]? := List.head?_drop
  obtain ⟨argv,optind,firstNonopt,lastNonopt,nextchar⟩ := g
  cases nextchar with
  | nil => exact absurd rfl hc
  | cons c more =>
    simp only at hi hn hp hhead
    by_cases htakes : o.letter c = some true
    · by_cases hmore : more = []
      · subst hmore
        cases hvalue : args[optind + 1]? with
        | none =>
          rw [hvalue] at hnext hhead
          have hnone : argv[optind + 1]? = none := by simpa using hnext
          refine ⟨⟨optind,.unknown,optind + 1⟩,_,?_,?_,rfl,hone [],⟨hn,by simp only; omega⟩,fun h => absurd rfl h⟩
          · simp only [pending,cluster,htakes,hhead,if_true,ne_eq,not_true_eq_false,if_false,
              List.cons_append,List.nil_append]
          · simp only [shortStep,htakes,if_true,ne_eq,not_true_eq_false,if_false,hnone]
        | some value =>
          rw [hvalue] at hnext hhead
          obtain ⟨p,hp',hvalue'⟩ := Option.map_eq_some_iff.mp hnext
          obtain ⟨hlt,hvalue''⟩ := List.getElem?_eq_some_iff.mp hvalue
          have htwo := h.advance (k := 2) hlt firstNonopt lastNonopt []
          refine ⟨⟨optind,.option c (some value),optind + 2⟩,_,?_,?_,rfl,htwo,⟨hn,by simp only; omega⟩,
            fun h => absurd rfl h⟩
          · have hdrop : args.drop (optind + 1) = value :: args.drop (optind + 2) := by
              rw [List.drop_eq_getElem_cons hlt,hvalue'']
            simp only [pending,cluster,htakes,hhead,if_true,ne_eq,not_true_eq_false,if_false,
              List.cons_append,List.nil_append]
            rw [hdrop]
            rfl
          · simp only [shortStep,htakes,if_true,ne_eq,not_true_eq_false,if_false,hp',hvalue']
      · refine ⟨⟨optind,.option c (some more),optind + 1⟩,_,?_,?_,rfl,hone [],⟨hn,by simp only; omega⟩,fun h => absurd rfl h⟩
        · simp only [pending,cluster,htakes,hmore,if_true,ne_eq,not_false_eq_true,
            List.cons_append,List.nil_append]
        · simp only [shortStep,htakes,hmore,if_false,if_true,ne_eq,not_false_eq_true]
    · have hanswer : shortStep o text ⟨argv,optind,firstNonopt,lastNonopt,c :: more⟩ =
          (some (letterAnswer o c),
            ⟨argv,if more = [] then optind + 1 else optind,firstNonopt,lastNonopt,more⟩) := by
        cases hletter : o.letter c with
        | none => simp only [shortStep,hletter,letterAnswer,if_true]
        | some takes =>
          cases takes with
          | true => exact absurd hletter htakes
          | false => simp [shortStep,hletter,letterAnswer]
      by_cases hmore : more = []
      · subst hmore
        rw [if_pos rfl] at hanswer
        refine ⟨⟨optind,letterAnswer o c,optind + 1⟩,_,?_,hanswer,rfl,hone [],⟨hn,by simp only; omega⟩,
          fun h => absurd rfl h⟩
        simp only [pending]
        rw [cluster_plain htakes,if_pos rfl]
        rfl
      · rw [if_neg hmore] at hanswer
        refine ⟨⟨optind,letterAnswer o c,optind⟩,_,?_,hanswer,rfl,hstay more,⟨hn,hp⟩,fun _ => hi⟩
        cases more with
        | nil => exact absurd rfl hmore
        | cons d more =>
          simp only [pending]
          rw [cluster_plain htakes,if_neg hmore]
          rfl

theorem longStep_pending (h : Follows text args g) (hr : Ranged g) (hi : g.optind < args.length)
    (body : Arg) : ∃ f g', longStep o text g body = (some f.answer,g') ∧ g'.optind = f.optind ∧
      Follows text args g' ∧ Ranged g' ∧ (g'.nextchar ≠ [] → g'.optind < args.length) ∧
      f = (long o g.optind (args.drop (g.optind + 1)).head? body).1 ∧
      pending o args g' = scan o (g.optind + 1) (long o g.optind (args.drop (g.optind + 1)).head? body).2
        (args.drop (g.optind + 1)) := by
  have hone := h.advance (k := 1) hi g.firstNonopt g.lastNonopt []
  have hnext := h.lookup (Nat.le_succ g.optind)
  have hpassed : Ranged ⟨g.argv,g.optind + 1,g.firstNonopt,g.lastNonopt,[]⟩ :=
    ⟨hr.nonopts,Nat.le_succ_of_le hr.passed⟩
  have hhead : (args.drop (g.optind + 1)).head? = args[g.optind + 1]? := List.head?_drop
  simp only [longStep,long]
  cases hnamed : o.named (body.takeWhile (· ≠ '=')) with
  | none => exact ⟨_,_,rfl,rfl,hone,hpassed,fun h => absurd rfl h,rfl,rfl⟩
  | some l =>
    dsimp only
    cases hbody : body.drop (body.takeWhile (· ≠ '=')).length with
    | cons _ value =>
      dsimp only
      cases htakes : l.hasArg with
      | true => exact ⟨_,_,rfl,rfl,hone,hpassed,fun h => absurd rfl h,rfl,rfl⟩
      | false => exact ⟨_,_,rfl,rfl,hone,hpassed,fun h => absurd rfl h,rfl,rfl⟩
    | nil =>
      dsimp only
      cases htakes : l.hasArg with
      | false => exact ⟨_,_,rfl,rfl,hone,hpassed,fun h => absurd rfl h,rfl,rfl⟩
      | true =>
        cases hvalue : args[g.optind + 1]? with
        | none =>
          rw [hvalue] at hnext hhead
          have hnone : g.argv[g.optind + 1]? = none := by simpa using hnext
          simp only [if_true,hhead,hnone]
          exact ⟨_,_,rfl,rfl,hone,hpassed,fun h => absurd rfl h,rfl,rfl⟩
        | some value =>
          rw [hvalue] at hnext hhead
          obtain ⟨p,hp,rfl⟩ := Option.map_eq_some_iff.mp hnext
          obtain ⟨hlt,hget⟩ := List.getElem?_eq_some_iff.mp hvalue
          have htwo := h.advance (k := 2) hlt g.firstNonopt g.lastNonopt []
          have hdrop : args.drop (g.optind + 1) = text p :: args.drop (g.optind + 2) := by
            rw [List.drop_eq_getElem_cons hlt,hget]
          simp only [if_true,hhead,hp]
          refine ⟨⟨g.optind,.option l.val (some (text p)),g.optind + 2⟩,_,rfl,rfl,htwo,
            ⟨hr.nonopts,Nat.le_succ_of_le (Nat.le_succ_of_le hr.passed)⟩,fun h => absurd rfl h,rfl,?_⟩
          simp only [pending]
          rw [hdrop]
          rfl

theorem length_giveUp (g : State π) : (giveUp g).argv = g.argv := by
  unfold giveUp
  split <;> rfl

theorem length_terminate (hr : Ranged g) (hi : g.optind < g.argv.length) :
    (terminate g).argv.length = g.argv.length := by
  have hahead : Ranged { g with optind := g.optind + 1 } := ⟨hr.nonopts,Nat.le_succ_of_le hr.passed⟩
  have hlen := length_exchange hahead hi
  simp only [terminate]
  split
  · exact hlen
  · split <;> rfl

theorem getoptLong_settled (hc : g.nextchar = []) :
    getoptLong o text g = match (skip text (settle g)).argv[(skip text (settle g)).optind]? with
      | none => (none,giveUp (skip text (settle g)))
      | some p =>
        if text p = ['-','-'] then (none,giveUp (terminate (skip text (settle g))))
        else if ['-','-'].isPrefixOf (text p) then
          longStep o text (skip text (settle g)) ((text p).drop 2)
        else shortStep o text { skip text (settle g) with nextchar := (text p).drop 1 } := by
  unfold getoptLong
  exact if_neg (by simp [hc])

-- One call of getopt gives the first of the answers that are still to come.
theorem getoptLong_pending (h : Follows text args g) (hr : Ranged g)
    (hin : g.nextchar ≠ [] → g.optind < args.length) :
    (pending o args g = [] ∧ ∃ g', getoptLong o text g = (none,g') ∧ g'.argv.length = args.length) ∨
      ∃ f g', pending o args g = f :: pending o args g' ∧ getoptLong o text g = (some f.answer,g') ∧
        g'.optind = f.optind ∧ Follows text args g' ∧ Ranged g' ∧
        (g'.nextchar ≠ [] → g'.optind < args.length) := by
  by_cases hc : g.nextchar = []
  · obtain ⟨hsettled,hfirst,hoptind,hchars⟩ := h.settle hr
    obtain ⟨hskipped,hranged,hdrop,hscan⟩ := hsettled.skip (o := o) hfirst
    have hlookup := hskipped.lookup le_rfl
    have hchars' : (skip text (settle g)).nextchar = [] := hchars.trans hc
    have hpending : pending o args g = scan o (skip text (settle g)).optind false
        (args.drop (skip text (settle g)).optind) := by
      rw [← hscan,hoptind,pending,hc]
    have hcall : getoptLong o text g = _ := getoptLong_settled hc
    generalize skip text (settle g) = g₁ at *
    cases helem : g₁.argv[g₁.optind]? with
    | none =>
      rw [helem] at hlookup hcall
      have hend : args.drop g₁.optind = [] :=
        List.drop_eq_nil_iff.mpr (List.getElem?_eq_none_iff.mp hlookup.symm)
      refine .inl ⟨by rw [hpending,hend]; rfl,_,hcall,?_⟩
      rw [length_giveUp]
      exact hskipped.sized
    | some p =>
      rw [helem] at hlookup hcall
      obtain ⟨hlt,hget⟩ := List.getElem?_eq_some_iff.mp hlookup.symm
      have hcons : args.drop g₁.optind = text p :: args.drop (g₁.optind + 1) := by
        rw [List.drop_eq_getElem_cons hlt,hget]
      have hoption : ¬ nonoption (text p) = true := by
        have hhead := List.head?_dropWhile_not nonoption (args.drop (settle g).optind)
        rw [← hdrop,hcons] at hhead
        simpa using hhead
      rw [hcons] at hpending
      simp only [scan] at hpending
      rw [if_neg hoption] at hpending
      dsimp only at hcall
      by_cases hdashes : text p = ['-','-']
      · rw [if_pos hdashes] at hpending hcall
        refine .inl ⟨hpending,_,hcall,?_⟩
        rw [length_giveUp,length_terminate hranged (hskipped.sized ▸ hlt)]
        exact hskipped.sized
      · rw [if_neg hdashes] at hpending hcall
        rw [element] at hpending
        by_cases hlong : ['-','-'].isPrefixOf (text p) = true
        · rw [if_pos hlong] at hpending hcall
          obtain ⟨f,g',hstep,hto,hfollows,hrange,hchar,hf,hrest⟩ :=
            longStep_pending hskipped hranged hlt ((text p).drop 2)
          refine .inr ⟨f,g',?_,hcall.trans hstep,hto,hfollows,hrange,hchar⟩
          rw [hpending,hrest,hf]
          rfl
        · rw [if_neg hlong] at hpending hcall
          have hbody : (text p).drop 1 ≠ [] := rest_of_option hoption
          obtain ⟨f,g',hstep,hrun,hto,hfollows,hrange,hchar⟩ :=
            shortStep_pending (o := o) (g := { g₁ with nextchar := (text p).drop 1 })
              ⟨hskipped.sized,hskipped.ahead,hskipped.inside⟩ ⟨hranged.nonopts,hranged.passed⟩ hlt hbody
          refine .inr ⟨f,g',?_,hcall.trans hrun,hto,hfollows,hrange,hchar⟩
          rw [← hstep,hpending,pending]
          split
          · rename_i hnil
            exact absurd hnil hbody
          · rfl
  · obtain ⟨f,g',hstep,hrun,hrest⟩ := shortStep_pending (o := o) h hr (hin hc) hc
    refine .inr ⟨f,g',hstep,?_,hrest⟩
    rw [getoptLong,if_pos hc,hrun]

theorem eachOption_pending {ε σ : Type} (handle : σ → Answer → Nat → Run ε σ) (h : Follows text args g)
    (hr : Ranged g) (hin : g.nextchar ≠ [] → g.optind < args.length) (s : σ) {n : Nat}
    (hn : (pending o args g).length < n) : ∃ g' : State π, g'.argv.length = args.length ∧
      eachOption o text handle n g s =
        (do let s ← (pending o args g).foldlM (fun s f => handle s f.answer f.optind) s
            pure (g',s)) := by
  induction hlist : pending o args g generalizing n g s with
  | nil =>
    obtain ⟨n,rfl⟩ : ∃ k, n = k + 1 := ⟨n - 1,by omega⟩
    rcases getoptLong_pending (o := o) h hr hin with ⟨_,g',hcall,hlen⟩ | ⟨f,g',hstep,_⟩
    · exact ⟨g',hlen,by simp only [eachOption,hcall]; rfl⟩
    · rw [hlist] at hstep
      cases hstep
  | cons f rest ih =>
    rw [hlist,List.length_cons] at hn
    obtain ⟨n,rfl⟩ : ∃ k, n = k + 1 := ⟨n - 1,by omega⟩
    rcases getoptLong_pending (o := o) h hr hin with ⟨hnil,_⟩ | ⟨f',g',hstep,hcall,hto,hfollows,hrange,hchar⟩
    · rw [hlist] at hnil
      cases hnil
    · rw [hlist] at hstep
      obtain ⟨rfl,hrest⟩ := List.cons.inj hstep
      rw [List.foldlM_cons,eachOption]
      simp only [hcall,hto]
      cases hhandle : handle s f.answer f.optind with
      | error e => exact ⟨g,h.sized,rfl⟩
      | ok t =>
        simp only [ok_bind]
        have hfuel : (pending o args g').length < n := by
          rw [← hrest]
          omega
        obtain ⟨last,hlen,hrun⟩ := ih hfollows hrange hchar t hfuel hrest.symm
        exact ⟨last,hlen,hrun⟩

-- A whole run, from the start and with fuel for every answer.
theorem eachOption_scan {ε σ : Type} (o : Options) (text : π → Arg) (handle : σ → Answer → Nat → Run ε σ) {argv : List π}
    (hpos : 1 ≤ argv.length) (s : σ) {n : Nat}
    (hn : (scan o 1 false ((argv.map text).drop 1)).length < n) : ∃ g' : State π,
      g'.argv.length = argv.length ∧ eachOption o text handle n (start argv) s =
        (do let s ← (scan o 1 false ((argv.map text).drop 1)).foldlM
              (fun s f => handle s f.answer f.optind) s
            pure (g',s)) := by
  obtain ⟨hfollows,hranged⟩ := Follows.start text hpos
  obtain ⟨g',hlen,hrun⟩ := eachOption_pending (o := o) handle hfollows hranged
    (fun h => absurd rfl h) s hn
  exact ⟨g',hlen.trans (List.length_map _),hrun⟩

end Simulation

end Trema.Library.Getopt
