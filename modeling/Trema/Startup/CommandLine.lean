import Trema.Library.GetoptRuns
import Trema.Library.Segments
import Trema.Startup.PidFile

namespace Trema.Startup

open Library Getopt Numeral

section Words

variable {ε : Type} {args ps : List Arg}

-- The words among the strings between the NULs, up to two NULs in a row.
def words : List Arg → List Arg
  | [] => []
  | [] :: rest => match rest with
    | (_ :: _) :: _ => words rest
    | _ => []
  | p :: rest => p :: words rest

def joined (args : List Arg) : List Char := args.flatMap (· ++ [nul])

-- The arguments that are found in what is read of the command line.
def shownArgs (args : List Arg) : List Arg := words (((joined args).take pathMax).splitOn nul)

theorem words_cons {p : Arg} (h : p ≠ []) (rest : List Arg) : words (p :: rest) = p :: words rest := by
  cases p with
  | nil => exact absurd rfl h
  | cons c p => rfl

theorem stringAt_word {pre word rest : List Char} (hword : nul ∉ word) :
    (stringAt (pre ++ (word ++ nul :: rest)) pre.length : Run ε Arg) = .ok word := by
  have hfront : ((pre ++ (word ++ nul :: rest)).drop pre.length).takeWhile (· ≠ nul) = word := by
    rw [List.drop_left,List.takeWhile_append_of_pos]
    · rw [List.takeWhile_cons_of_neg (by simp),List.append_nil]
    · intro c hc
      exact decide_eq_true fun h => hword (h ▸ hc)
  have hinside : pre.length + word.length < (pre ++ (word ++ nul :: rest)).length := by
    simp only [List.length_append,List.length_cons]
    omega
  rw [stringAt,hfront,if_pos hinside]

theorem tokenize_step {pre word tail : List Char} {bufferEnd : Nat} (hword : nul ∉ word)
    (hpre : pre.length ≤ bufferEnd) (n : Nat) (argv : List Arg) :
    (tokenize (pre ++ (word ++ nul :: tail)) bufferEnd (n + 1) pre.length argv : Run ε (List Arg)) =
      if word ≠ [] then
        tokenize (pre ++ (word ++ nul :: tail)) bufferEnd n (pre.length + word.length + 1) (argv ++ [word])
      else match tail.head? with
        | none => .error .outOfBounds
        | some c => if c = nul then .ok argv
          else tokenize (pre ++ (word ++ nul :: tail)) bufferEnd n (pre.length + 1) argv := by
  rw [tokenize,if_pos hpre,stringAt_word hword,ok_bind]
  split
  · rfl
  · rename_i hempty
    obtain rfl : word = [] := not_not.mp hempty
    have hlast : ([] ++ nul :: tail)[1]? = tail.head? := List.head?_eq_getElem?.symm
    have hnext : (pre ++ ([] ++ nul :: tail))[pre.length + 1]? = tail.head? := by
      rw [List.getElem?_append_right (Nat.le_add_right _ _),Nat.add_sub_cancel_left]
      exact hlast
    cases htail : tail.head? <;> simp only [hnext,htail]

theorem tokenize_words (hne : ps ≠ []) (hnul : ∀ p ∈ ps, nul ∉ p) (pre : List Char) {k n : Nat} (hk : 2 ≤ k)
    (hn : ps.length < n) (argv : List Arg) :
    (tokenize (pre ++ ([nul].intercalate ps ++ List.replicate k nul))
        (pre ++ [nul].intercalate ps).length n pre.length argv : Run ε (List Arg)) =
      .ok (argv ++ words ps) := by
  induction ps generalizing pre n argv with
  | nil => exact absurd rfl hne
  | cons p rest ih =>
    have hp := hnul p List.mem_cons_self
    obtain ⟨n,rfl⟩ : ∃ m, n = m + 1 := ⟨n - 1,by omega⟩
    obtain ⟨k,rfl⟩ : ∃ m, k = m + 2 := ⟨k - 2,by omega⟩
    rw [List.length_cons] at hn
    cases rest with
    | nil =>
      obtain ⟨n,rfl⟩ : ∃ m, n = m + 1 := ⟨n - 1,by simp at hn; omega⟩
      have hbuffer : [nul].intercalate [p] ++ List.replicate (k + 2) nul =
          p ++ nul :: (nul :: List.replicate k nul) := by
        simp [List.intercalate,List.replicate_succ]
      have hend : (pre ++ [nul].intercalate [p]).length = pre.length + p.length := by
        simp [List.intercalate]
      rw [hbuffer,hend,tokenize_step hp (Nat.le_add_right _ _)]
      by_cases hempty : p = []
      · subst hempty
        simp [words]
      · rw [if_pos hempty,words_cons hempty,tokenize,if_neg (by omega)]
        rfl
    | cons q more =>
      have hjoin : [nul].intercalate (p :: q :: more) = p ++ nul :: [nul].intercalate (q :: more) := by
        simp [List.intercalate]
      have hbuffer : [nul].intercalate (p :: q :: more) ++ List.replicate (k + 2) nul =
          p ++ nul :: ([nul].intercalate (q :: more) ++ List.replicate (k + 2) nul) := by
        rw [hjoin,List.append_assoc,List.cons_append]
      have hahead := ih (by simp) (fun r hr => hnul r (List.mem_cons_of_mem p hr)) (pre ++ p ++ [nul]) (n := n)
        (by omega)
      have hshift : pre ++ p ++ [nul] ++ ([nul].intercalate (q :: more) ++ List.replicate (k + 2) nul) =
          pre ++ (p ++ nul :: ([nul].intercalate (q :: more) ++ List.replicate (k + 2) nul)) := by
        simp
      have hstop : pre ++ p ++ [nul] ++ [nul].intercalate (q :: more) =
          pre ++ [nul].intercalate (p :: q :: more) := by
        simp [hjoin]
      have hplace : (pre ++ p ++ [nul]).length = pre.length + p.length + 1 := by
        simp
        omega
      rw [hshift,hstop,hplace] at hahead
      rw [hbuffer,tokenize_step hp (by simp)]
      by_cases hempty : p = []
      · subst hempty
        cases q with
        | nil =>
          cases more with
          | nil => simp [words,List.intercalate,List.replicate_succ]
          | cons r more => simp [words,List.intercalate]
        | cons c q =>
          have hc : c ≠ nul := fun h => hnul (c :: q) (by simp) (h ▸ List.mem_cons_self)
          have hhead : ([nul].intercalate ((c :: q) :: more) ++ List.replicate (k + 2) nul).head? = some c := by
            cases more <;> simp [List.intercalate]
          rw [if_neg (by simp),hhead]
          simp only [hc,if_false]
          exact hahead argv
      · rw [if_pos hempty,hahead,words_cons hempty,List.append_assoc]
        rfl

theorem commandLine_words (cmdline : List Char) :
    (commandLine cmdline : Run ε (List Arg)) = .ok (words ((cmdline.take pathMax).splitOn nul)) := by
  have hlen : (cmdline.take pathMax).length ≤ pathMax := List.length_take_le _ _
  obtain ⟨done,pending,h⟩ := exists_segmented nul (cmdline.take pathMax)
  have hpieces : [nul].intercalate (done ++ [pending]) = cmdline.take pathMax := by
    rw [← h.splitOn]
    exact List.intercalate_splitOn nul
  have hnul : ∀ p ∈ done ++ [pending], nul ∉ p := by
    intro p hp
    rcases List.mem_append.mp hp with hp | hp
    · exact h.segments p hp
    · exact List.mem_singleton.mp hp ▸ h.unended
  have hcount : (done ++ [pending]).length ≤ pathMax + 1 := by
    rw [List.length_append,List.length_singleton]
    exact Nat.succ_le_succ (h.length_le.trans hlen)
  have hbuffer : (cmdline.take pathMax ++
      List.replicate (pathMax + 2 - (cmdline.take pathMax).length) nul).length = pathMax + 2 := by
    rw [List.length_append,List.length_replicate]
    omega
  have hrun := tokenize_words (ε := ε) (by simp) hnul [] (k := pathMax + 2 - (cmdline.take pathMax).length)
    (n := pathMax + 2) (by omega) (by omega) []
  rw [hpieces] at hrun
  simp only [commandLine,hbuffer,h.splitOn]
  exact hrun

end Words

section ServiceName

variable {ε : Type}

def named (f : Found) : Option Arg :=
  match f.answer with
  | .option _ value => value
  | .unknown => none

-- The last name given with -n, else the name of the program.
def serviceNameOf (args : List Arg) : Option Arg :=
  args.head?.map fun program =>
    ((scan nameOptions 1 false (args.drop 1)).filterMap named).getLast?.getD (gnuBasename program)

def IsName (a : Answer) : Prop := a = .unknown ∨ ∃ value, a = .option 'n' (some value)

theorem letter_nameOptions (c : Char) : nameOptions.letter c = if c = 'n' then some true else none := by
  by_cases hn : c = 'n'
  · subst hn
    rfl
  · by_cases hcolon : c = ':'
    · subst hcolon
      rfl
    · simp [Options.letter,nameOptions,hn,Ne.symm hn,Ne.symm hcolon]

theorem nameOptions_allows : Allows nameOptions IsName where
  unknown := .inl rfl
  flag c h := by
    rw [letter_nameOptions] at h
    split at h <;> simp at h
  letter c value h := by
    rw [letter_nameOptions] at h
    split at h
    · rename_i hc
      exact .inr ⟨value,by rw [hc]⟩
    · cases h
  longFlag l hl h := by
    obtain rfl := List.mem_singleton.mp hl
    cases h
  long l hl _ value := by
    obtain rfl := List.mem_singleton.mp hl
    exact .inr ⟨value,rfl⟩

theorem takeName_fold (fs : List Found) (h : ∀ f ∈ fs, IsName f.answer) (s : Option Arg) :
    (fs.foldlM (fun s f => takeName s f.answer f.optind) s : Run ε (Option Arg)) =
      .ok ((fs.filterMap named).getLast?.or s) := by
  induction fs generalizing s with
  | nil => rfl
  | cons f fs ih =>
    have hrest := ih fun g hg => h g (List.mem_cons_of_mem f hg)
    rw [List.foldlM_cons]
    rcases h f List.mem_cons_self with hf | ⟨value,hf⟩
    · have hnone : named f = none := by rw [named,hf]
      rw [List.filterMap_cons_none hnone,hf]
      exact hrest s
    · have hsome : named f = some value := by rw [named,hf]
      rw [List.filterMap_cons_some hsome,hf,List.getLast?_cons]
      refine (hrest (some value)).trans ?_
      cases (fs.filterMap named).getLast? <;> rfl

theorem serviceName_eq (argv : List Arg) :
    (serviceName argv : Run ε Arg) = match serviceNameOf argv with
      | none => .error .outOfBounds
      | some name => .ok name := by
  cases argv with
  | nil => rfl
  | cons program rest =>
    have hfuel : (scan nameOptions 1 false (((program :: rest).map id).drop 1)).length <
        ((program :: rest).map List.length).sum + 1 := by
      have hlen := length_scan nameOptions 1 false rest
      simp only [List.map_id,List.drop_succ_cons,List.drop_zero,List.map_cons,List.sum_cons]
      omega
    obtain ⟨g,_,hrun⟩ := eachOption_scan (ε := ε) nameOptions id takeName (by simp) (some (gnuBasename program)) hfuel
    rw [serviceName,hrun,takeName_fold _ fun f hf => nameOptions_allows.scan _ _ _ f hf]
    simp only [ok_bind,pure_eq_ok,serviceNameOf,List.head?_cons,Option.map_some,List.map_id]
    cases ((scan nameOptions 1 false ((program :: rest).drop 1)).filterMap named).getLast? <;> rfl

end ServiceName

section Reading

variable {ε : Type} {files : Files} {processes : Processes} {directory name : Arg} {pid : Nat}

def pidDigits (pid : Nat) : List Char := (Nat.toDigits 10 pid).take (pidStringLength - 1)

theorem pidDigits_digit (pid : Nat) : ∀ c ∈ pidDigits pid, c.isDigit = true :=
  fun _ hc => Nat.isDigit_of_mem_toDigits (by decide) (by decide) (List.mem_of_mem_take hc)

theorem pidDigits_ne_nil (pid : Nat) : pidDigits pid ≠ [] := by
  simp [pidDigits,pidStringLength,List.take_eq_nil_iff]

theorem pidString_pidText (pid : Nat) :
    (pidString ((pidText pid).take (pidStringLength - 1)) : Run ε (List Char)) = .ok (pidDigits pid) := by
  have hdigits : ∀ c ∈ Nat.toDigits 10 pid, c.isDigit = true :=
    fun c hc => Nat.isDigit_of_mem_toDigits (by decide) (by decide) hc
  have hwhole : (pidDigits pid).takeWhile (· ≠ nul) = pidDigits pid := by
    refine List.takeWhile_eq_self_iff.mpr fun c hc => decide_eq_true ?_
    rintro rfl
    exact absurd (pidDigits_digit pid nul hc) (by decide)
  rw [pidText,List.take_take,min_self,List.take_append]
  by_cases hshort : (Nat.toDigits 10 pid).length < pidStringLength - 1
  · obtain ⟨k,hk⟩ : ∃ k, pidStringLength - 1 - (Nat.toDigits 10 pid).length = k + 1 :=
      ⟨_,(Nat.sub_add_cancel (Nat.sub_pos_of_lt hshort)).symm⟩
    rw [hk,List.take_succ_cons,List.take_nil,pidString,List.getLast?_concat]
    simp only [if_true,List.dropLast_concat]
    exact congrArg _ hwhole
  · rw [Nat.sub_eq_zero_of_le (not_lt.mp hshort),List.take_zero,List.append_nil]
    change pidString (pidDigits pid) = _
    cases hlast : (pidDigits pid).getLast? with
    | none => exact absurd (List.getLast?_eq_none_iff.mp hlast) (pidDigits_ne_nil pid)
    | some c =>
      have hc : c ≠ '\n' := by
        rintro rfl
        exact absurd (pidDigits_digit pid '\n' (List.mem_of_getLast? hlast)) (by decide)
      rw [pidString,hlast]
      simp only [hc,if_false]
      exact congrArg _ hwhole

def readBack (pid : Nat) : Nat := valueOf 10 (pidDigits pid)

theorem readBack_lt (pid : Nat) : readBack pid < 10 ^ 9 :=
  (valueOf_lt (pidDigits_digit pid)).trans_le
    (Nat.pow_le_pow_right (by decide) (List.length_take_le _ _))

theorem readBack_eq (h : pid < 10 ^ 9) : readBack pid = pid := by
  have hlen : (Nat.toDigits 10 pid).length ≤ pidStringLength - 1 :=
    (Nat.length_toDigits_le_iff (by decide) (by decide)).mpr h
  rw [readBack,pidDigits,List.take_of_length_le hlen,valueOf_toDigits]

theorem strtol_pidDigits (hpid : 0 < pid) : strtol (pidDigits pid) = ((readBack pid : Int),[]) := by
  have hlt := readBack_lt pid
  refine strtol_decimal (pidDigits_digit pid) (pidDigits_ne_nil pid) ?_ ?_
  · intro hhead
    apply toDigits_head hpid
    rw [pidDigits,List.head?_take] at hhead
    simpa [pidStringLength] using hhead
  · unfold longMax
    unfold readBack at hlt
    omega

theorem toInt_readBack (pid : Nat) : (Int32.ofInt (readBack pid)).toInt = readBack pid := by
  have hlt := readBack_lt pid
  refine Int32.toInt_ofInt_of_le ?_ ?_
  · omega
  · omega

-- The name that the links and files under /proc/PID give the process.
def FoundUnder (exe : Arg) (args : List Arg) (name : Arg) : Prop :=
  name = gnuBasename (exe.take (pathMax - 1)) ∨ serviceNameOf (shownArgs args) = some name

def foundAs (name : Arg) (pid : Int) (files : Files) (process : Process) : Run ε (Int × Files) :=
  if name = gnuBasename (process.exe.take (pathMax - 1)) then .ok (pid,files)
  else match serviceNameOf (words ((process.cmdline.take pathMax).splitOn nul)) with
    | none => .error .outOfBounds
    | some service => if name = service then .ok (pid,files) else .ok (-1,files)

theorem readPid_pidText (hfile : files (pidPath directory name) = some (pidText pid)) (hpid : 0 < pid) :
    (readPid directory name files processes : Run ε (Int × Files)) =
      if (readBack pid : Int) ≤ 0 then .ok (-1,files)
      else match processes (readBack pid) with
        | none => .ok (-1,Function.update files (pidPath directory name) none)
        | some process => foundAs name (readBack pid) files process := by
  unfold readPid
  simp only [hfile,pidString_pidText,strtol_pidDigits hpid,toInt_readBack,ok_bind,ne_eq,not_true_eq_false,
    if_false,pure_eq_ok,commandLine_words,serviceName_eq]
  split
  · rfl
  · cases processes (readBack pid) with
    | none => rfl
    | some process =>
      simp only [foundAs]
      split
      · rfl
      · cases serviceNameOf (words ((process.cmdline.take pathMax).splitOn nul)) with
        | none => rfl
        | some service => rfl

theorem foundAs_answer {process : Process} {files' : Files} {r p : Int}
    (h : (foundAs name p files process : Run ε (Int × Files)) = .ok (r,files')) : r = -1 ∨ r = p := by
  unfold foundAs at h
  split at h
  · exact .inr (Prod.mk.inj (Except.ok.inj h)).1.symm
  · split at h
    · cases h
    · split at h
      · exact .inr (Prod.mk.inj (Except.ok.inj h)).1.symm
      · exact .inl (Prod.mk.inj (Except.ok.inj h)).1.symm

theorem foundAs_iff {process : Process} {p : Int} (hp : p ≠ -1) :
    (∃ files', (foundAs name p files process : Run ε (Int × Files)) = .ok (p,files')) ↔
      name = gnuBasename (process.exe.take (pathMax - 1)) ∨
        serviceNameOf (words ((process.cmdline.take pathMax).splitOn nul)) = some name := by
  unfold foundAs
  split
  · rename_i hexe
    exact iff_of_true ⟨files,rfl⟩ (.inl hexe)
  · rename_i hexe
    cases hservice : serviceNameOf (words ((process.cmdline.take pathMax).splitOn nul)) with
    | none => simp [hexe]
    | some service =>
      by_cases heq : name = service
      · simp [heq]
      · simp [hexe,heq,Ne.symm heq,hp.symm]

theorem readPid_misses {exe service : Arg} {args : List Arg}
    (hfile : files (pidPath directory name) = some (pidText pid)) (hpid : 0 < pid) (hsize : pid < 10 ^ 9)
    (hlive : processes pid = some ⟨exe,joined args⟩) (hexe : name ≠ gnuBasename (exe.take (pathMax - 1)))
    (hservice : serviceNameOf (shownArgs args) = some service) (hname : name ≠ service) :
    (readPid directory name files processes : Run ε (Int × Files)) = .ok (-1,files) := by
  rw [shownArgs] at hservice
  rw [readPid_pidText hfile hpid,readBack_eq hsize,if_neg (by omega),hlive]
  simp only [foundAs,hexe,if_false,hservice,hname]

theorem readPid_finds_iff {exe : Arg} {args : List Arg}
    (hfile : files (pidPath directory name) = some (pidText pid)) (hpid : 0 < pid)
    (hlive : processes pid = some ⟨exe,joined args⟩) :
    (∃ files', (readPid directory name files processes : Run ε (Int × Files)) = .ok ((pid : Int),files')) ↔
      pid < 10 ^ 9 ∧ FoundUnder exe args name := by
  rw [readPid_pidText hfile hpid]
  by_cases hsize : pid < 10 ^ 9
  · rw [readBack_eq hsize,if_neg (by omega),hlive]
    exact (foundAs_iff (by omega)).trans (and_iff_right hsize).symm
  · have hback := readBack_lt pid
    refine iff_of_false ?_ fun h => hsize h.1
    rintro ⟨files',h⟩
    split at h
    · have heq := (Prod.mk.inj (Except.ok.inj h)).1
      omega
    · split at h
      · have heq := (Prod.mk.inj (Except.ok.inj h)).1
        omega
      · rcases foundAs_answer h with heq | heq
        · omega
        · omega

end Reading

end Trema.Startup
