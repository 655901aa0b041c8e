import Mathlib.Logic.Function.Basic
import Trema.Library.Getopt
import Trema.Library.Numeral

namespace Trema.Startup

open Library Getopt Numeral

def nul : Char := Char.ofNat 0
def pathMax : Nat := 4096
def pidStringLength : Nat := 10

abbrev Files := Arg → Option (List Char)

-- What the links and files under /proc/PID say about a live process.
structure Process where
  exe : Arg
  cmdline : List Char

abbrev Processes := Int → Option Process

-- basename() of string.h
def gnuBasename (path : Arg) : Arg := (path.reverse.takeWhile (· ≠ '/')).reverse

section PidFiles

variable {ε : Type} (refused : Arg → Bool) (directory : Arg)

def pidPath (name : Arg) : Arg := (directory ++ '/' :: name ++ ".pid".toList).take (pathMax - 1)

def pidText (pid : Nat) : List Char := (Nat.toDigits 10 pid ++ ['\n']).take (pidStringLength - 1)

-- The file is not truncated; `refused` has the paths that cannot be made, locked or renamed to.
def writePid (name : Arg) (pid : Nat) (files : Files) : Run ε Files :=
  let path := pidPath directory name
  if refused path then .error .aborted
  else
    let old := (files path).getD []
    .ok (Function.update files path (some (pidText pid ++ old.drop (pidText pid).length)))

def renamePid (old new : Arg) (files : Files) : Run ε Files :=
  let oldPath := pidPath directory old
  let newPath := pidPath directory new
  let files := Function.update files newPath none
  match files oldPath with
  | none => .error .aborted
  | some text =>
    if refused newPath then .error .aborted
    else .ok (Function.update (Function.update files oldPath none) newPath (some text))

end PidFiles

section CommandLine

variable {ε : Type}

-- strlen( token ) characters from `token` on
def stringAt (buffer : List Char) (token : Nat) : Run ε Arg :=
  let word := (buffer.drop token).takeWhile (· ≠ nul)
  if token + word.length < buffer.length then .ok word else .error .outOfBounds

def tokenize (buffer : List Char) (bufferEnd : Nat) : Nat → Nat → List Arg → Run ε (List Arg)
  | 0, _, _ => .error .outOfFuel
  | n + 1, token, argv =>
    if token ≤ bufferEnd then do
      let word ← stringAt buffer token
      if word ≠ [] then tokenize buffer bufferEnd n (token + word.length + 1) (argv ++ [word])
      else
        match buffer[token + 1]? with
        | none => .error .outOfBounds
        | some c => if c = nul then .ok argv else tokenize buffer bufferEnd n (token + 1) argv
    else .ok argv

-- The buffer of PATH_MAX + 2 cleared bytes, and the argv made from it.
def commandLine (cmdline : List Char) : Run ε (List Arg) :=
  let content := cmdline.take pathMax
  let buffer := content ++ List.replicate (pathMax + 2 - content.length) nul
  tokenize buffer content.length buffer.length 0 []

def nameOptions : Options := ⟨"n:".toList,[⟨"name".toList,true,'n'⟩]⟩

def takeName (serviceName : Option Arg) (a : Answer) (_optind : Nat) : Run ε (Option Arg) :=
  match a with
  | .option c optarg => if c = 'n' then .ok optarg else .ok serviceName
  | .unknown => .ok serviceName

-- basename( argv[ 0 ] ) reads the string, strcmp reads service_name.
def serviceName (argv : List Arg) : Run ε Arg :=
  match argv with
  | [] => .error .outOfBounds
  | program :: _ => do
    let (_,name) ← eachOption nameOptions id takeName ((argv.map List.length).sum + 1) (start argv)
      (some (gnuBasename program))
    match name with
    | none => .error .outOfBounds
    | some name => pure name

end CommandLine

section Reading

variable {ε : Type}

-- str[ length - 1 ] is looked at whatever the length.
def pidString (text : List Char) : Run ε (List Char) :=
  match text.getLast? with
  | none => .error .outOfBounds
  | some c => .ok ((if c = '\n' then text.dropLast else text).takeWhile (· ≠ nul))

def readPid (directory name : Arg) (files : Files) (processes : Processes) : Run ε (Int × Files) :=
  let path := pidPath directory name
  match files path with
  | none => .ok (-1,files)
  | some text => do
    let str ← pidString (text.take (pidStringLength - 1))
    let (value,endp) := strtol str
    let pid := (Int32.ofInt value).toInt
    if endp ≠ [] then pure (-1,files)
    else if pid ≤ 0 then pure (-1,files)
    else
      match processes pid with
      | none => pure (-1,Function.update files path none)
      | some process =>
        if name = gnuBasename (process.exe.take (pathMax - 1)) then pure (pid,files)
        else do
          let argv ← commandLine process.cmdline
          let service ← serviceName argv
          if name = service then pure (pid,files) else pure (-1,files)

end Reading

end Trema.Startup
