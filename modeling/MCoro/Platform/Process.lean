/-
ProcessBuilder of co_async/platform/process.hpp.

The descriptors of a pipe are arguments of the call that opens it, and so is the
environment where `environ` is read. What posix_spawn does with the recorded file
actions is the function `execute`: dup2 replaces an entry of the child's table and
fails on one that is not open, close removes an entry.
-/

import MCoro.Utils.StringUtils

namespace MCoro

open StringUtils

inductive FileAction where
  | dup2 (fd newfd : Nat)
  | close (fd : Nat)
  | chdir (path : Text)
  deriving DecidableEq, Repr

abbrev DescriptorTable (File : Type) := Nat → Option File

namespace FileAction

variable {File : Type}

def execute (table : DescriptorTable File) : FileAction → Option (DescriptorTable File)
  | .dup2 fd newfd => (table fd).map fun file => Function.update table newfd (some file)
  | .close fd => some (Function.update table fd none)
  | .chdir _ => some table

def executeAll (table : DescriptorTable File) : List FileAction → Option (DescriptorTable File)
  | [] => some table
  | action :: actions => (action.execute table).bind fun table => executeAll table actions

end FileAction

structure ProcessBuilder where
  mFileActions : List FileAction := []
  mAbsolutePath : Bool := false
  mEnvInherited : Bool := false
  mPath : Text := []
  mArgvStore : List Text := []
  mEnvpStore : List Text := []
  /-- The descriptors of the handles that are kept. -/
  mFileStore : List Nat := []
  deriving DecidableEq, Repr

/-- The arguments of posix_spawn, or of posix_spawnp for a path that is searched. -/
structure SpawnCall where
  searched : Bool
  path : Text
  fileActions : List FileAction
  argv : List Text
  envp : List Text
  deriving DecidableEq, Repr

def equalsSign : UInt8 := 61

namespace ProcessBuilder

def chdir (builder : ProcessBuilder) (path : Text) : ProcessBuilder :=
  { builder with mFileActions := builder.mFileActions ++ [.chdir path] }

/-- `open` with a descriptor of ours. -/
def openFd (builder : ProcessBuilder) (fd ourFd : Nat) : ProcessBuilder :=
  if fd ≠ ourFd then { builder with mFileActions := builder.mFileActions ++ [.dup2 ourFd fd] }
  else builder

/-- `open` with a handle that is moved from. -/
def openFile (builder : ProcessBuilder) (fd file : Nat) : ProcessBuilder :=
  let builder := builder.openFd fd file
  { builder with mFileStore := builder.mFileStore ++ [file] }

def close (builder : ProcessBuilder) (fd : Nat) : ProcessBuilder :=
  { builder with mFileActions := builder.mFileActions ++ [.close fd] }

/-- `pipe2` has stored `p0` and `p1`. The second value is the descriptor of the stream. -/
def pipeOut (builder : ProcessBuilder) (fd p0 p1 : Nat) : ProcessBuilder × Nat :=
  let builder := builder.openFile fd p1
  let stream := p0
  ((builder.close p0).close p1, stream)

def pipeIn (builder : ProcessBuilder) (fd p0 p1 : Nat) : ProcessBuilder × Nat :=
  let builder := builder.openFile fd p0
  let stream := p1
  ((builder.close p0).close p1, stream)

def path (builder : ProcessBuilder) (path : Text) (isAbsolute : Bool) : ProcessBuilder :=
  { builder with
    mPath := path
    mAbsolutePath := isAbsolute }

def arg (builder : ProcessBuilder) (arg : Text) : ProcessBuilder :=
  { builder with mArgvStore := builder.mArgvStore ++ [arg] }

def inheritEnv (environ : List Text) (builder : ProcessBuilder) (inherit : Bool) :
    ProcessBuilder :=
  let store := if inherit then builder.mEnvpStore ++ environ.map cStr else builder.mEnvpStore
  { builder with
    mEnvpStore := store
    mEnvInherited := true }

def env (environ : List Text) (builder : ProcessBuilder) (key val : Text) : ProcessBuilder :=
  let builder := if builder.mEnvInherited then builder else builder.inheritEnv environ true
  { builder with mEnvpStore := builder.mEnvpStore ++ [key ++ [equalsSign] ++ val] }

def spawnCall (environ : List Text) (builder : ProcessBuilder) : SpawnCall :=
  { searched := !builder.mAbsolutePath
    path := builder.mPath
    fileActions := builder.mFileActions
    argv := if builder.mArgvStore = [] then [builder.mPath] else builder.mPath :: builder.mArgvStore
    envp := if builder.mEnvpStore = [] then environ else builder.mEnvpStore }

/-- The builder after spawn, which has returned `status`. -/
def spawned (builder : ProcessBuilder) (status : Int) : ProcessBuilder :=
  if status ≠ 0 then builder
  else
    { builder with
      mPath := []
      mArgvStore := []
      mEnvpStore := []
      mFileStore := [] }

end ProcessBuilder

/-! ### Pipes -/

namespace ProcessBuilder

variable {File : Type}

/-- What open and the two closes record. -/
def redirection (fd ourFd p0 p1 : Nat) : List FileAction :=
  (if fd ≠ ourFd then [.dup2 ourFd fd] else []) ++ [.close p0, .close p1]

theorem pipeOut_records (builder : ProcessBuilder) (fd p0 p1 : Nat) :
    (builder.pipeOut fd p0 p1).1.mFileActions =
      builder.mFileActions ++ redirection fd p1 p0 p1 := by
  unfold pipeOut openFile openFd redirection close
  by_cases apart : fd ≠ p1
  · simp only [if_pos apart, List.append_assoc, List.cons_append, List.nil_append]
  · simp only [if_neg apart, List.append_assoc, List.cons_append, List.nil_append]

theorem pipeIn_records (builder : ProcessBuilder) (fd p0 p1 : Nat) :
    (builder.pipeIn fd p0 p1).1.mFileActions =
      builder.mFileActions ++ redirection fd p0 p0 p1 := by
  unfold pipeIn openFile openFd redirection close
  by_cases apart : fd ≠ p0
  · simp only [if_pos apart, List.append_assoc, List.cons_append, List.nil_append]
  · simp only [if_neg apart, List.append_assoc, List.cons_append, List.nil_append]

theorem executeAll_closes (table : DescriptorTable File) (p0 p1 : Nat) :
    FileAction.executeAll table [.close p0, .close p1] =
      some (Function.update (Function.update table p0 none) p1 none) :=
  rfl

theorem closes_at (table : DescriptorTable File) (p0 p1 fd : Nat) :
    Function.update (Function.update table p0 none) p1 none fd =
      if fd = p0 ∨ fd = p1 then none else table fd := by
  by_cases second : fd = p1
  · rw [second, Function.update_self, if_pos (.inr rfl)]
  · rw [Function.update_of_ne second]
    by_cases first : fd = p0
    · rw [first, Function.update_self, if_pos (.inl rfl)]
    · rw [Function.update_of_ne first, if_neg (not_or.2 ⟨first, second⟩)]

/-- The closes come last, so they undo a redirection to an end of the pipe. -/
theorem redirection_leaves (table : DescriptorTable File) (fd : Nat) {ourFd p0 p1 : Nat} {file : File}
    (opened : table ourFd = some file) (ours : ourFd = p0 ∨ ourFd = p1) :
    ∃ after, FileAction.executeAll table (redirection fd ourFd p0 p1) = some after ∧
      after fd = if fd = p0 ∨ fd = p1 then none else some file := by
  unfold redirection
  by_cases apart : fd ≠ ourFd
  · have replaced : FileAction.executeAll table
        ((if fd ≠ ourFd then [.dup2 ourFd fd] else []) ++ [.close p0, .close p1]) =
        FileAction.executeAll (Function.update table fd (some file)) [.close p0, .close p1] := by
      rw [if_pos apart]
      change ((table ourFd).map _).bind _ = _
      rw [opened]
      rfl
    rw [replaced, executeAll_closes]
    refine ⟨_, rfl, ?_⟩
    rw [closes_at, Function.update_self]
  · have same : fd = ourFd := not_not.1 apart
    rw [if_neg apart, List.nil_append, executeAll_closes]
    refine ⟨_, rfl, ?_⟩
    have closed : fd = p0 ∨ fd = p1 := by
      rw [same]
      exact ours
    rw [closes_at, if_pos closed, if_pos closed]

/-- Executing the actions leaves the descriptor open on the file. -/
def LeavesOpen (table : DescriptorTable File) (actions : List FileAction) (fd : Nat)
    (file : File) : Prop :=
  ∃ after, FileAction.executeAll table actions = some after ∧ after fd = some file

theorem redirection_leavesOpen (table : DescriptorTable File) {fd ourFd p0 p1 : Nat} {file : File}
    (opened : table ourFd = some file) (ours : ourFd = p0 ∨ ourFd = p1) :
    LeavesOpen table (redirection fd ourFd p0 p1) fd file ↔ fd ≠ p0 ∧ fd ≠ p1 := by
  obtain ⟨after, executed, left⟩ := redirection_leaves table fd opened ours
  rw [← not_or]
  constructor
  · intro leaves aliased
    obtain ⟨after', executed', opened'⟩ := leaves
    cases executed.symm.trans executed'
    rw [left, if_pos aliased] at opened'
    cases opened'
  · intro apart
    rw [if_neg apart] at left
    exact ⟨after, executed, left⟩

/-- pipe_out and pipe_in redirect every descriptor but the two of the pipe. -/
theorem pipe_leavesOpen_iff (builder : ProcessBuilder) (table : DescriptorTable File)
    (fd p0 p1 : Nat) (readEnd writeEnd : File) (readOpen : table p0 = some readEnd)
    (writeOpen : table p1 = some writeEnd) :
    ∃ out into,
      (builder.pipeOut fd p0 p1).1.mFileActions = builder.mFileActions ++ out ∧
      (builder.pipeIn fd p0 p1).1.mFileActions = builder.mFileActions ++ into ∧
      (LeavesOpen table out fd writeEnd ↔ fd ≠ p0 ∧ fd ≠ p1) ∧
      (LeavesOpen table into fd readEnd ↔ fd ≠ p0 ∧ fd ≠ p1) := by
  refine ⟨_, _, pipeOut_records builder fd p0 p1, pipeIn_records builder fd p0 p1, ?_, ?_⟩
  · exact redirection_leavesOpen table writeOpen (.inr rfl)
  · exact redirection_leavesOpen table readOpen (.inl rfl)

/-- The pipe of a process with its standard streams closed, and with them open. -/
theorem pipe_leavesOpen_iff_small :
    (∃ out into, (({} : ProcessBuilder).pipeOut 1 0 1).1.mFileActions = [] ++ out ∧
      (({} : ProcessBuilder).pipeIn 1 0 1).1.mFileActions = [] ++ into ∧
      ¬LeavesOpen (fun fd => some fd) out 1 1 ∧ ¬LeavesOpen (fun fd => some fd) into 1 0) ∧
    ∃ out into, (({} : ProcessBuilder).pipeOut 1 3 4).1.mFileActions = [] ++ out ∧
      (({} : ProcessBuilder).pipeIn 1 3 4).1.mFileActions = [] ++ into ∧
      LeavesOpen (fun fd => some fd) out 1 4 ∧ LeavesOpen (fun fd => some fd) into 1 3 := by
  constructor
  · obtain ⟨out, into, recordsOut, recordsIn, output, input⟩ :=
      pipe_leavesOpen_iff {} (fun fd => some fd) 1 0 1 0 1 rfl rfl
    exact ⟨out, into, recordsOut, recordsIn, fun leaves => (output.1 leaves).2 rfl,
      fun leaves => (input.1 leaves).2 rfl⟩
  · obtain ⟨out, into, recordsOut, recordsIn, output, input⟩ :=
      pipe_leavesOpen_iff {} (fun fd => some fd) 1 3 4 3 4 rfl rfl
    exact ⟨out, into, recordsOut, recordsIn, output.2 (by decide), input.2 (by decide)⟩

/-- Standard output onto itself: the write end is closed in the child. -/
theorem pipeOut_closed :
    (({} : ProcessBuilder).pipeOut 1 0 1).1.mFileActions = [.close 0, .close 1] ∧
      ¬LeavesOpen (fun fd => some fd) [.close 0, .close 1] 1 1 := by
  constructor
  · rfl
  · intro leaves
    obtain ⟨after, executed, opened⟩ := leaves
    rw [executeAll_closes, Option.some.injEq] at executed
    rw [← executed, Function.update_self] at opened
    cases opened

end ProcessBuilder

end MCoro
