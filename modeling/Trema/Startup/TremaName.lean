import Trema.Startup.CommandLine
import Trema.Startup.StandardOptions
import Trema.SwitchManager.ServiceInterface

namespace Trema.Startup

open Library Getopt

-- The static variables of trema.c that the name goes through.
structure Globals where
  tremaName : Option Arg
  tremaStarted : Bool
deriving DecidableEq, Repr

section Code

variable (refused : Arg → Bool) (directory : Arg)

def setTremaName (t : Globals) (files : Files) (name : Arg) : Run Exit (Globals × Files) :=
  match t.tremaName with
  | none => .ok ({ t with tremaName := some name },files)
  | some old =>
    if t.tremaStarted then do
      let files ← renamePid refused directory old name files
      pure ({ t with tremaName := some name },files)
    else .ok ({ t with tremaName := some name },files)

-- The part of start_trema that makes the pid file.
def startTrema (t : Globals) (pid : Nat) (files : Files) : Run Exit (Globals × Files) := do
  let name ← orAbort t.tremaName
  let files ← writePid refused directory name pid files
  pure ({ t with tremaStarted := true },files)

def getPidByTremaName (name : Arg) (files : Files) (processes : Processes) : Run Exit (Int × Files) :=
  readPid directory name files processes

end Code

-- What kill( pid, SIGTERM ) comes to.
inductive Kill where
  | delivered
  | noProcess
  | failed
deriving DecidableEq, Repr

def maxTry : Nat := 10

-- The value of `try` after the loop; `alive` answers the calls of kill( pid, 0 ).
def tries (alive : Nat → Bool) : Nat → Nat → Nat
  | 0, count => count
  | n + 1, count => if alive count then tries alive n (count + 1) else count

def terminateTremaProcess (kill : Kill) (alive : Nat → Bool) (pid : Int) : Run Exit Bool :=
  if pid ≤ 0 then .error .aborted
  else match kill with
    | .noProcess => .ok true
    | .failed => .ok false
    | .delivered => .ok (tries alive (maxTry + 1) 0 ≤ maxTry)

def switchServiceName (datapathId : UInt64) : Arg :=
  ("switch.".toList ++ SwitchManager.alternateHex datapathId).take 25

structure Duplicate where
  signalled : Option Int
  ret : Int
  files : Files

-- The check of switch_event_recv_featuresreply for a daemon that has the datapath already.
def checkDuplicate (kill : Int → Kill) (alive : Int → Nat → Bool) (directory : Arg) (datapathId : UInt64)
    (files : Files) (processes : Processes) : Run Exit Duplicate := do
  let (pid,files) ← getPidByTremaName directory (switchServiceName datapathId) files processes
  if 0 < pid then do
    let gone ← terminateTremaProcess (kill pid) (alive pid) pid
    pure ⟨some pid,if gone then 0 else -1,files⟩
  else pure ⟨none,0,files⟩

-- The life of a process and the pid files meanwhile. No longer file stands at its first path, and the others
-- leave its pid file alone.
inductive Life (refused : Arg → Bool) (directory : Arg) (args : List Arg) (pid : Nat) : Globals → Files → Prop
  | initialized {fuel : Nat} {s : TremaSettings} {r : List (Option Nat) × Int} (files : Files)
      (h : InitTrema.parseArgv args fuel = .ok (s,r)) :
      Life refused directory args pid ⟨some s.tremaName,false⟩ files
  | started {t t' : Globals} {files files' : Files} (h : Life refused directory args pid t files)
      (hold : ∀ name, t.tremaName = some name →
        ((files (pidPath directory name)).getD []).length ≤ (pidText pid).length)
      (hstart : startTrema refused directory t pid files = .ok (t',files')) :
      Life refused directory args pid t' files'
  | named {t t' : Globals} {files files' : Files} {name : Arg} (h : Life refused directory args pid t files)
      (hset : setTremaName refused directory t files name = .ok (t',files')) :
      Life refused directory args pid t' files'
  | others {t : Globals} {files files' : Files} (h : Life refused directory args pid t files)
      (hkept : ∀ name, t.tremaName = some name →
        files' (pidPath directory name) = files (pidPath directory name)) :
      Life refused directory args pid t files'

section Steps

variable {refused : Arg → Bool} {directory old new name : Arg} {args : List Arg} {pid : Nat}
  {t : Globals} {files files' : Files}

theorem writePid_reports
    (hold : ((files (pidPath directory name)).getD []).length ≤ (pidText pid).length)
    (h : (writePid refused directory name pid files : Run Exit Files) = .ok files') :
    files' (pidPath directory name) = some (pidText pid) := by
  simp only [writePid] at h
  split at h
  · cases h
  · obtain rfl := Except.ok.inj h
    rw [Function.update_self,List.drop_of_length_le hold,List.append_nil]

theorem renamePid_moves {text : List Char} (htext : files (pidPath directory old) = some text)
    (h : (renamePid refused directory old new files : Run Exit Files) = .ok files') :
    files' (pidPath directory new) = some text := by
  simp only [renamePid] at h
  by_cases hsame : pidPath directory old = pidPath directory new
  · rw [hsame,Function.update_self] at h
    cases h
  · rw [Function.update_of_ne hsame,htext] at h
    simp only at h
    split at h
    · cases h
    · obtain rfl := Except.ok.inj h
      exact Function.update_self _ _ _

-- A started process has its pid in the file of its current name.
theorem Life.reports (h : Life refused directory args pid t files) : ∃ name, t.tremaName = some name ∧
    (t.tremaStarted = true → files (pidPath directory name) = some (pidText pid)) := by
  induction h with
  | initialized files h => exact ⟨_,rfl,fun h => by cases h⟩
  | @started t t' files files' _ hold hstart ih =>
    obtain ⟨name,hname,_⟩ := ih
    simp only [startTrema,hname,orAbort,ok_bind] at hstart
    obtain ⟨made,hmade,hpair⟩ := bind_eq_ok.mp hstart
    obtain ⟨rfl,rfl⟩ := Prod.mk.inj (Except.ok.inj hpair)
    exact ⟨name,rfl,fun _ => writePid_reports (hold name hname) hmade⟩
  | @named t t' files files' new _ hset ih =>
    obtain ⟨name,hname,hfile⟩ := ih
    simp only [setTremaName,hname] at hset
    split at hset
    · rename_i hstarted
      obtain ⟨moved,hmoved,hpair⟩ := bind_eq_ok.mp hset
      obtain ⟨rfl,rfl⟩ := Prod.mk.inj (Except.ok.inj hpair)
      exact ⟨new,rfl,fun _ => renamePid_moves (hfile hstarted) hmoved⟩
    · rename_i hstarted
      obtain ⟨rfl,rfl⟩ := Prod.mk.inj (Except.ok.inj hset)
      exact ⟨new,rfl,fun h => absurd h hstarted⟩
  | others _ hkept ih =>
    obtain ⟨name,hname,hfile⟩ := ih
    exact ⟨name,hname,fun h => (hkept name hname).trans (hfile h)⟩

theorem terminateTremaProcess_ok (kill : Kill) (alive : Nat → Bool) {p : Int} (hp : 0 < p) :
    ∃ gone, terminateTremaProcess kill alive p = .ok gone := by
  simp only [terminateTremaProcess,if_neg (not_le.mpr hp)]
  cases kill with
  | delivered => exact ⟨_,rfl⟩
  | noProcess => exact ⟨_,rfl⟩
  | failed => exact ⟨_,rfl⟩

theorem checkDuplicate_signals_iff (kill : Int → Kill) (alive : Int → Nat → Bool) (datapathId : UInt64)
    (processes : Processes) {p : Int} (hp : 0 < p) :
    (∃ out, checkDuplicate kill alive directory datapathId files processes = .ok out ∧ out.signalled = some p) ↔
      ∃ files', getPidByTremaName directory (switchServiceName datapathId) files processes = .ok (p,files') := by
  unfold checkDuplicate
  constructor
  · rintro ⟨out,hout,hsignalled⟩
    obtain ⟨⟨q,files'⟩,hread,hrest⟩ := bind_eq_ok.mp hout
    simp only at hrest
    split at hrest
    · rename_i hq
      obtain ⟨gone,hgone⟩ := terminateTremaProcess_ok (kill q) (alive q) hq
      rw [hgone] at hrest
      obtain rfl := Except.ok.inj hrest
      obtain rfl := Option.some.inj hsignalled
      exact ⟨files',hread⟩
    · obtain rfl := Except.ok.inj hrest
      cases hsignalled
  · rintro ⟨files',hread⟩
    obtain ⟨gone,hgone⟩ := terminateTremaProcess_ok (kill p) (alive p) hp
    refine ⟨⟨some p,if gone then 0 else -1,files'⟩,?_,rfl⟩
    rw [hread,ok_bind]
    simp only [hp,if_true,hgone,ok_bind]
    rfl

end Steps

theorem get_pid_by_trema_name_finds_iff {refused : Arg → Bool} {directory : Arg} {args : List Arg} {pid : Nat}
    {t : Globals} {files : Files} (h : Life refused directory args pid t files) (hstarted : t.tremaStarted = true)
    (hpid : 0 < pid) (exe : Arg) (processes : Processes) (hlive : processes pid = some ⟨exe,joined args⟩) :
    ∃ name, t.tremaName = some name ∧
      ((∃ files', getPidByTremaName directory name files processes = .ok ((pid : Int),files')) ↔
        pid < 10 ^ 9 ∧ FoundUnder exe args name) ∧
      ∀ datapathId kill alive, switchServiceName datapathId = name →
        ((∃ out, checkDuplicate kill alive directory datapathId files processes = .ok out ∧
            out.signalled = some (pid : Int)) ↔
          pid < 10 ^ 9 ∧ FoundUnder exe args name) := by
  obtain ⟨name,hname,hfile⟩ := h.reports
  have hiff := readPid_finds_iff (ε := Exit) (hfile hstarted) hpid hlive
  refine ⟨name,hname,hiff,?_⟩
  rintro datapathId kill alive rfl
  exact (checkDuplicate_signals_iff kill alive datapathId processes (by omega)).trans hiff

section SwitchDaemon

def pidDirectory : Arg := "/tmp/pid".toList

-- A switch daemon as the switch manager starts it.
def switchArgs : List Arg :=
  ["switch.192.168.0.1:49152".toList,"--name=switch.192.168.0.1:49152".toList,"--socket=5".toList,
    "--daemonize".toList]

def switchProcesses : Processes := fun p =>
  if p = 4711 then some ⟨"/trema/objects/switch_manager/switch".toList,joined switchArgs⟩ else none

def startedFiles : Files :=
  Function.update (fun _ => none) (pidPath pidDirectory "switch.192.168.0.1:49152".toList) (some (pidText 4711))

def renamedFiles : Files :=
  let files := Function.update startedFiles (pidPath pidDirectory "switch.0x1".toList) none
  Function.update (Function.update files (pidPath pidDirectory "switch.192.168.0.1:49152".toList) none)
    (pidPath pidDirectory "switch.0x1".toList) (some (pidText 4711))

theorem switch_started : Life (fun _ => false) pidDirectory switchArgs 4711
    ⟨some "switch.192.168.0.1:49152".toList,true⟩ startedFiles := by
  have hinit : InitTrema.parseArgv switchArgs 100 =
      .ok (⟨"switch.192.168.0.1:49152".toList,"switch.192.168.0.1:49152".toList,true,none,false,none⟩,
        ([some 0,some 2,none,some 3,none],2)) := by
    decide
  refine .started (.initialized (fun _ => none) hinit) ?_ rfl
  intro name _
  exact Nat.zero_le _

theorem switch_renamed : Life (fun _ => false) pidDirectory switchArgs 4711 ⟨some "switch.0x1".toList,true⟩
    renamedFiles := by
  have hset : setTremaName (fun _ => false) pidDirectory ⟨some "switch.192.168.0.1:49152".toList,true⟩
      startedFiles "switch.0x1".toList = .ok (⟨some "switch.0x1".toList,true⟩,renamedFiles) := by
    rfl
  exact .named switch_started hset

theorem get_pid_by_trema_name_finds_started :
    ∃ files', getPidByTremaName pidDirectory "switch.192.168.0.1:49152".toList startedFiles switchProcesses =
      .ok ((4711 : Nat),files') := by
  obtain ⟨name,hname,hfound,_⟩ := get_pid_by_trema_name_finds_iff switch_started rfl (by decide)
    "/trema/objects/switch_manager/switch".toList switchProcesses rfl
  obtain rfl := Option.some.inj hname
  exact hfound.mpr ⟨by decide,.inr (by decide)⟩

-- After the features reply the name stands neither in the link nor in the command line.
theorem renamed_switch_not_found :
    Life (fun _ => false) pidDirectory switchArgs 4711 ⟨some "switch.0x1".toList,true⟩ renamedFiles ∧
      switchProcesses 4711 = some ⟨"/trema/objects/switch_manager/switch".toList,joined switchArgs⟩ ∧
      getPidByTremaName pidDirectory "switch.0x1".toList renamedFiles switchProcesses =
        .ok (-1,renamedFiles) ∧
      ∀ kill alive, ∃ out, checkDuplicate kill alive pidDirectory 1 renamedFiles switchProcesses = .ok out ∧
        out.signalled = none := by
  have hread : getPidByTremaName pidDirectory "switch.0x1".toList renamedFiles switchProcesses =
      .ok (-1,renamedFiles) := by
    have hfile : renamedFiles (pidPath pidDirectory "switch.0x1".toList) = some (pidText 4711) := by
      rw [renamedFiles,Function.update_self]
    have hservice : serviceNameOf (shownArgs switchArgs) = some "switch.192.168.0.1:49152".toList := by
      decide
    exact readPid_misses hfile (by decide) (by decide) rfl (by decide) hservice (by decide)
  refine ⟨switch_renamed,rfl,hread,fun kill alive => ⟨⟨none,0,renamedFiles⟩,?_,rfl⟩⟩
  have hname : switchServiceName 1 = "switch.0x1".toList := by decide
  rw [checkDuplicate,hname,hread]
  rfl

end SwitchDaemon

end Trema.Startup
