import DebugHost.Process.Exit
import DebugHost.Shell.Grammar
import DebugHost.Shell.Scope

/-! # Processes

What a process is: its place in the tree and in a group, its descriptors, what it does with signals,
and its work. A process that runs a script holds a stack of frames, each of which tells what is to be
done next, so that it can be stopped, copied and replaced between any two steps. -/

namespace DebugHost.Shell

/-! ### Signals -/

/-- The signals by name. -/
def signals : List (String × Nat) :=
  [("HUP", 1), ("INT", 2), ("QUIT", 3), ("ILL", 4), ("TRAP", 5), ("ABRT", 6), ("BUS", 7), ("FPE", 8),
    ("KILL", 9), ("USR1", 10), ("SEGV", 11), ("USR2", 12), ("PIPE", 13), ("ALRM", 14), ("TERM", 15),
    ("CHLD", 17), ("CONT", 18), ("STOP", 19), ("TSTP", 20), ("TTIN", 21), ("TTOU", 22), ("URG", 23),
    ("XCPU", 24), ("XFSZ", 25), ("VTALRM", 26), ("PROF", 27), ("WINCH", 28), ("IO", 29), ("PWR", 30),
    ("SYS", 31)]

/-- The first of the signals that are for programs to use as they like. -/
def firstOwn : Nat := 34

/-- The last signal. -/
def lastSignal : Nat := 64

/-- The name of a signal. Those for programs to use are named by their distance from the nearer end. -/
def signalName (n : Nat) : String :=
  match signals.find? (·.2 = n) with
  | some (name, _) => name
  | none =>
    let distance (k : Nat) (sign : String) : String := if k = 0 then "" else sign ++ toString k
    if n = 0 then "EXIT"
    else if n < firstOwn || lastSignal < n then toString n
    else if n < 50 then "RTMIN" ++ distance (n - firstOwn) "+"
    else "RTMAX" ++ distance (lastSignal - n) "-"

/-- The number of a signal: given by itself or by a name. -/
def signal? (s : String) : Option Nat :=
  match s.toNat? with
  | some n => if n ≤ lastSignal then some n else none
  | none => (List.range (lastSignal + 1)).find? fun n => 0 < n && signalName n = s.toUpper

/-- The signal that asks a process to end. -/
def sigterm : Nat := 15

/-- The signal that no process can withstand. -/
def sigkill : Nat := 9

/-- The signal that tells a process that one of its children has ended. -/
def sigchld : Nat := 17

/-- The signal for writing where nobody reads. -/
def sigpipe : Nat := 13

/-- The signal that stops any process. -/
def sigstop : Nat := 19

/-- Whether no process can ignore a signal or act on it: the two that are meant for that, and those in
front of the signals for programs to use, which belong to the system. -/
def isUntouchable (n : Nat) : Bool := n ∈ [sigkill, sigstop, firstOwn - 2, firstOwn - 1]

/-- The signal that lets a stopped process go on. -/
def sigcont : Nat := 18

/-- Whether a signal does nothing unless a process has asked for it. -/
def isHarmless (n : Nat) : Bool := n ∈ [0, sigchld, sigcont, 23, 28]

/-- Whether a signal stops a process unless it has asked for something else. -/
def isStopping (n : Nat) : Bool := n ∈ [sigstop, 20, 21, 22]

/-- What the shell says of a command that a signal has ended. -/
def signalText : Nat → String
  | 1 => "Hangup"
  | 3 => "Quit"
  | 4 => "Illegal instruction"
  | 5 => "Trace/breakpoint trap"
  | 6 => "Aborted"
  | 7 => "Bus error"
  | 8 => "Floating point exception"
  | 9 => "Killed"
  | 10 => "User defined signal 1"
  | 11 => "Segmentation fault"
  | 12 => "User defined signal 2"
  | 14 => "Alarm clock"
  | 15 => "Terminated"
  | 16 => "Stack fault"
  | 24 => "CPU time limit exceeded"
  | 25 => "File size limit exceeded"
  | 26 => "Virtual timer expired"
  | 27 => "Profiling timer expired"
  | 29 => "I/O possible"
  | 30 => "Power failure"
  | 31 => "Bad system call"
  | n => if n < firstOwn then "Unknown signal " ++ toString n
    else "Real-time signal " ++ toString (n - firstOwn)

/-- The number by which a script sees the status of a process. -/
def statusNumber : WaitStatus → Nat
  | .code n => n.toNat
  | .signal n => 128 + n.toNat
  | .failed => 127

/-! ### Scripts at work -/

/-- What is to be done next. -/
inductive Frame where
  /-- Read the next line of commands. -/
  | text (rest : List Char) (line : Nat)
  | command (c : Command)
  /-- Run the command if the one before it has succeeded, or if it has failed. -/
  | ifSuccess (c : Command)
  | ifFailure (c : Command)
  /-- Turn the status around. -/
  | negate
  /-- The test of a loop has been run. -/
  | tested (isUntil : Bool) (test body : Command)
  /-- The body of a loop has been run. -/
  | again (isUntil : Bool) (test body : Command)
  /-- The words that are left for a loop. -/
  | each (name : String) (words : List String) (body : Command)
  /-- The test of a condition has been run. -/
  | branch (yes : Command) (no : Option Command)
  /-- Give the process these descriptors back. -/
  | restore (files : List (Nat × Nat))
  /-- Wait for processes in the foreground; the status is that of the last one. -/
  | await (processes : List Nat)
  /-- Wait for processes in the background. -/
  | waiting (processes : List Nat) (last : Option Nat)
  /-- Read what a process writes for a word of the command. -/
  | gather (pipe process : Nat) (octets : List UInt8) (c : Command)
  /-- Give the arguments back that the function has taken the place of, with the place of the next option
  among them, and the variables that it has made its own; `none` for those that were not there. -/
  | returned (args : List String) (place : OptionPlace) (own : List (String × Option Variable))
  /-- The action for a signal has been run. -/
  | handled (status : Nat)
  /-- The end of what a command of the shell has given it to read: commands in a text, or a script. -/
  | inside (name : String) (isScript : Bool)
  /-- Read commands from the input; it is read to the end first. -/
  | input (read : List UInt8)
  /-- What fails below is being tested. -/
  | lenient
  | exit (status : Nat)

/-- Whether nothing is to be done for a frame any more. -/
def Frame.isIdle : Frame → Bool
  | .text rest _ => rest.all Char.isWhitespace
  | .lenient => true
  | _ => false

/-- A shell that runs a script. -/
structure Interpreter where
  scope : Scope := {}
  functions : List (String × Command) := []
  /-- Actions for signals; zero stands for the exit. -/
  traps : List (Nat × String) := []
  frames : List Frame := []
  /-- Processes in the background that have not been waited for. -/
  jobs : List Nat := []
  /-- The line of the command at hand. -/
  line : Nat := 1
  /-- What the shell that this one was made from was reading in. -/
  caller : Option String := none
  /-- The status of the last script that was run for a word of the command at hand. -/
  gathered : Option Nat := none
  /-- Whether the last program may take the place of the shell; not so for the script of a file. -/
  isReplaceable : Bool := false
deriving Inhabited

/-- Whether the program at hand is the last thing that the shell does, so that it takes its place. -/
def Interpreter.endsHere (i : Interpreter) : Bool :=
  i.isReplaceable && i.traps.isEmpty && i.frames.all Frame.isIdle

/-! ### Processes -/

/-- The first of the descriptors that only the shell itself uses. -/
def firstReserved : Nat := 10

/-- What a descriptor leads to. -/
inductive Channel where
  | null
  | readEnd (pipe : Nat)
  | writeEnd (pipe : Nat)
  /-- A file, and the place in it from which is read; writing is at the end if `atEnd`. -/
  | file (trail : List String) (offset : Nat) (atEnd : Bool)
deriving DecidableEq, Repr

/-- A call of a tool. -/
structure ToolCall where
  /-- The name that was written for the tool, which stands in front of what it complains about. -/
  zero : String
  name : String
  args : List String
deriving DecidableEq, Repr

/-- What a process does. -/
inductive Work where
  | interpret (i : Interpreter)
  /-- A tool, and what it has read so far. -/
  | tool (call : ToolCall) (read : List UInt8)
  | sleep (until' : Nat)
  | ended (status : WaitStatus)

/-- A process. -/
structure Process where
  id : Nat
  parent : Nat
  group : Nat
  cwd : List String
  environment : List (String × String)
  /-- Descriptors, and the open files they are. -/
  files : List (Nat × Nat)
  /-- Signals that do nothing. -/
  ignored : List Nat := []
  /-- Signals that wait for their action. -/
  pending : List Nat := []
  /-- Whether a signal has stopped the process. -/
  isStopped : Bool := false
  /-- Signals that a stopped process gets when it goes on. -/
  held : List Nat := []
  work : Work

/-- Whether a process is still at work. -/
def Process.isAlive (p : Process) : Bool :=
  match p.work with
  | .ended _ => false
  | _ => true

/-- Whether a process is a shell with an action for a signal. -/
def Process.hasAction (p : Process) (n : Nat) : Bool :=
  match p.work with
  | .interpret i => !isUntouchable n && i.traps.any (·.1 = n)
  | _ => false

/-- The status of a process that has ended. -/
def Process.status? (p : Process) : Option WaitStatus :=
  match p.work with
  | .ended s => some s
  | _ => none

/-- A pipe. -/
structure Pipe where
  number : Nat
  content : List UInt8 := []
  /-- Whether it is read from outside of the processes. -/
  isWatched : Bool := false

end DebugHost.Shell
