import Trema.Startup.Remainder

namespace Trema.Startup

open Library Getopt

inductive Exit where
  | usage
deriving DecidableEq, Repr

def strcasecmp (a b : Arg) : Bool := a.map Char.toLower == b.map Char.toLower

-- The names of log.c with the values of syslog.h.
def priorities : List (Arg × Nat) :=
  [("critical".toList,2),("crit".toList,2),("error".toList,3),("err".toList,3),("warn".toList,4),
    ("warning".toList,4),("notice".toList,5),("info".toList,6),("information".toList,6),
    ("debug".toList,7),("dbg".toList,7)]

def facilities : List (Arg × Nat) :=
  [("kern".toList,0),("user".toList,8),("mail".toList,16),("daemon".toList,24),("auth".toList,32),
    ("syslog".toList,40),("lpr".toList,48),("news".toList,56),("uucp".toList,64),("cron".toList,72),
    ("authpriv".toList,80),("ftp".toList,88),("local0".toList,128),("local1".toList,136),
    ("local2".toList,144),("local3".toList,152),("local4".toList,160),("local5".toList,168),
    ("local6".toList,176),("local7".toList,184)]

def valueFrom (names : List (Arg × Nat)) (name : Arg) : Option Nat :=
  (names.find? fun entry => strcasecmp entry.1 name).map Prod.snd

def priorityValueFrom (name : Arg) : Option Nat := valueFrom priorities name
def facilityValueFrom (name : Arg) : Option Nat := valueFrom facilities name

-- An argument that the code asserts, or a name that ends in trema_abort.
def orAbort {α : Type} : Option α → Run Exit α
  | some a => .ok a
  | none => .error .aborted

def tremaOptions : Options where
  short := "n:dl:gf:h".toList
  long := [⟨"name".toList,true,'n'⟩,⟨"daemonize".toList,false,'d'⟩,⟨"logging_level".toList,true,'l'⟩,
    ⟨"syslog".toList,false,'g'⟩,⟨"logging_facility".toList,true,'f'⟩,⟨"help".toList,false,'h'⟩]

structure TremaSettings where
  tremaName : Arg
  executableName : Arg
  runAsDaemon : Bool
  level : Option Nat
  syslog : Bool
  facilityValue : Option Nat
deriving DecidableEq, Repr

-- basename() of libgen.h
def basename (path : Arg) : Arg :=
  if path = [] then ['.']
  else
    let stripped := (path.reverse.dropWhile (· = '/'))
    if stripped = [] then ['/'] else (stripped.takeWhile (· ≠ '/')).reverse

def tremaCases : List Char := ['n','d','l','g','f','h']

def tremaEffect (s : TremaSettings) (c : Char) (optarg : Option Arg) : Run Exit TremaSettings :=
  match c with
  | 'n' => do
    let name ← orAbort optarg
    pure { s with tremaName := name }
  | 'd' => .ok { s with runAsDaemon := true }
  | 'l' => do
    let level ← orAbort (optarg.bind priorityValueFrom)
    pure { s with level := some level }
  | 'g' => .ok { s with syslog := true }
  | 'f' => do
    let value ← orAbort (optarg.bind facilityValueFrom)
    pure { s with facilityValue := some value }
  | 'h' => .error (.rejected .usage)
  | _ => .ok s

def tremaStart (args : List Arg) : TremaSettings :=
  let name := basename (textAt args 0)
  ⟨name,name,false,none,false,none⟩

namespace InitTrema

def parseArgv (args : List Arg) (fuel : Nat) :
    Run Exit (TremaSettings × (List (Option Nat) × Int)) :=
  parseArgvWith tremaOptions args tremaCases tremaEffect (tremaStart args) fuel

end InitTrema

def chibachOptions : Options where
  short := "i:c:p:dl:h".toList
  long := [⟨"datapath_id".toList,true,'i'⟩,⟨"controller".toList,true,'c'⟩,⟨"port".toList,true,'p'⟩,
    ⟨"daemonize".toList,false,'d'⟩,⟨"logging_level".toList,true,'l'⟩,⟨"help".toList,false,'h'⟩]

structure ChibachSettings where
  datapathId : UInt64
  ip : UInt32
  port : UInt16
  runAsDaemon : Bool
  level : Option Nat
deriving DecidableEq, Repr

-- The conversions of the C library; inet_aton with what stands in `addr` where it fails.
structure Conversions where
  strtoull : Arg → UInt64
  inetAton : Arg → UInt32
  atoi : Arg → Int

def chibachCases : List Char := ['i','c','p','d','l','h']

def chibachEffect (libc : Conversions) (s : ChibachSettings) (c : Char) (optarg : Option Arg) :
    Run Exit ChibachSettings :=
  match c with
  | 'i' => .ok (match optarg with
    | none => s
    | some v => { s with datapathId := libc.strtoull v })
  | 'c' => .ok (match optarg with
    | none => s
    | some v => { s with ip := libc.inetAton v })
  | 'p' => .ok (match optarg with
    | none => s
    | some v => if libc.atoi v ≤ 65535 then { s with port := UInt16.ofInt (libc.atoi v) } else s)
  | 'd' => .ok { s with runAsDaemon := true }
  | 'l' => do
    let level ← orAbort (optarg.bind priorityValueFrom)
    pure { s with level := some level }
  | 'h' => .error (.rejected .usage)
  | _ => .ok s

def chibachStart : ChibachSettings := ⟨0,0x7f000001,6633,false,none⟩

namespace InitChibach

def parseArgv (libc : Conversions) (args : List Arg) (fuel : Nat) :
    Run Exit (ChibachSettings × (List (Option Nat) × Int)) :=
  parseArgvWith chibachOptions args chibachCases (chibachEffect libc) chibachStart fuel

end InitChibach

-- What the standard options leave of the arguments, for the run that gives `out`.
def LeavesTheRest {σ : Type} (os : List Found) (args : List Arg)
    (out : Run Exit (σ × (List (Option Nat) × Int))) : Prop :=
  ∃ s r, out = .ok (s,r) ∧ LeavesRest args.length (os.flatMap occupied) r

-- No option ends the process.
def GoesOn {σ : Type} (effect : σ → Char → Option Arg → Run Exit σ) (os : List Found) : Prop :=
  ∀ f ∈ os, ∀ s, ∃ t, applied effect s f = .ok t

section Rest

def Spelled (os : List Found) (args : List Arg) : Prop :=
  Balanced args.length (os.flatMap occupied) (os.flatMap (dropped args))

theorem spelled_plain (o : Options) (cases : List Char) {args : List Arg} (hpos : 0 < args.length) :
    ((∀ f ∈ standardOptions o cases args, Plain args f) → Spelled (standardOptions o cases args) args) ∧
      (args.length - 1 ∉ (standardOptions o cases args).flatMap occupied →
        Spelled (standardOptions o cases args) args →
          ∀ f ∈ standardOptions o cases args, Plain args f) := by
  obtain ⟨hplaced,hordered⟩ := standardOptions_placed o cases hpos
  exact ⟨balanced_of_plain hplaced hordered,plain_of_balanced hplaced hordered hpos⟩

theorem parse_argv_leaves_rest_iff (libc : Conversions) (args : List Arg) (fuel : Nat)
    (hpos : 0 < args.length) (hfuel : (args.map List.length).sum < fuel) :
    (∀ os, os = standardOptions tremaOptions tremaCases args → GoesOn tremaEffect os →
      (LeavesTheRest os args (InitTrema.parseArgv args fuel) ↔ Spelled os args) ∧
      ((∀ f ∈ os, Plain args f) → Spelled os args) ∧
      (args.length - 1 ∉ os.flatMap occupied → Spelled os args → ∀ f ∈ os, Plain args f)) ∧
    ∀ os, os = standardOptions chibachOptions chibachCases args → GoesOn (chibachEffect libc) os →
      (LeavesTheRest os args (InitChibach.parseArgv libc args fuel) ↔ Spelled os args) ∧
      ((∀ f ∈ os, Plain args f) → Spelled os args) ∧
      (args.length - 1 ∉ os.flatMap occupied → Spelled os args → ∀ f ∈ os, Plain args f) := by
  refine ⟨?_,?_⟩
  · rintro os rfl hgoes
    exact ⟨parseArgvWith_leaves_iff _ _ _ _ hpos hfuel hgoes,spelled_plain _ _ hpos⟩
  · rintro os rfl hgoes
    exact ⟨parseArgvWith_leaves_iff _ _ _ _ hpos hfuel hgoes,spelled_plain _ _ hpos⟩

def plainArgs : List Arg :=
  ["app".toList,"-d".toList,"--name=sw".toList,"-l".toList,"debug".toList,"eth0".toList]

def plainFound : List Found :=
  [⟨1,.option 'd' none,2⟩,⟨2,.option 'n' (some "sw".toList),3⟩,⟨3,.option 'l' (some "debug".toList),5⟩]

theorem plainArgs_found : plainFound = standardOptions tremaOptions tremaCases plainArgs := by decide

theorem parse_argv_leaves_eth0 :
    LeavesTheRest plainFound plainArgs (InitTrema.parseArgv plainArgs 30) := by
  have hgoes : GoesOn tremaEffect plainFound := by
    intro f hf s
    simp only [plainFound,List.mem_cons,List.not_mem_nil,or_false] at hf
    rcases hf with rfl | rfl | rfl
    · exact ⟨_,rfl⟩
    · exact ⟨_,rfl⟩
    · exact ⟨_,rfl⟩
  have hplain : ∀ f ∈ plainFound, Plain plainArgs f := by
    unfold Plain
    decide
  obtain ⟨hleaves,hspelled,_⟩ := (parse_argv_leaves_rest_iff ⟨fun _ => 0,fun _ => 0,fun _ => 0⟩
    plainArgs 30 (by decide) (by decide)).1 plainFound plainArgs_found hgoes
  exact hleaves.mpr (hspelled hplain)

-- The value is taken for an argument of its own, and the name of the program goes with it.
theorem parse_argv_attached_value :
    standardOptions tremaOptions tremaCases ["app".toList,"-nsw".toList] =
        [⟨1,.option 'n' (some "sw".toList),2⟩] ∧
      InitTrema.parseArgv ["app".toList,"-nsw".toList] 10 =
        .ok (⟨"sw".toList,"app".toList,false,none,false,none⟩,([none,some 1,none],0)) ∧
      ¬ LeavesTheRest [⟨1,.option 'n' (some "sw".toList),2⟩] ["app".toList,"-nsw".toList]
        (InitTrema.parseArgv ["app".toList,"-nsw".toList] 10) := by
  have hrun : InitTrema.parseArgv ["app".toList,"-nsw".toList] 10 =
      .ok (⟨"sw".toList,"app".toList,false,none,false,none⟩,([none,some 1,none],0)) := by
    rfl
  refine ⟨by decide,hrun,?_⟩
  rintro ⟨s,r,hout,hrest⟩
  rw [hrun] at hout
  cases hout
  have hname := hrest.name
  simp at hname

end Rest

end Trema.Startup
