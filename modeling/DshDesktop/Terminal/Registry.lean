import DshDesktop.Library.Table
import Mathlib.Data.Finset.Basic

/-!
# Terminal sessions

The PTY registry of `crates/terminal-provider`. What the operating system answers
to one call (which shells there are, whether the spawn and the reads and writes
work, the clock) is the record `Machine`. `PlatformSession::spawn` of `platform_unix.rs` is
modelled with the descriptors that are open in the process; a `close` releases its
descriptor whatever it returns, and the branch of the child never returns.
-/

namespace DshDesktop.Terminal

inductive PtyError
  | invalidShell
  | spawnUnavailable
  | unknownSession
  | invalidGeometry
  | writeTooLarge
  | io
  | stateUnavailable
  deriving DecidableEq

structure Machine where
  resolvesShell : Option String → Bool
  spawns : Bool
  failure : Option PtyError
  idMs : ℕ
  nowMs : ℕ

structure PtySession where
  sessionId : String
  cols : ℕ
  rows : ℕ
  createdAtUnixMs : ℕ
  lastActivityUnixMs : Option ℕ
  closed : Bool
  error : Option String

def PtySession.state (s : PtySession) : String := if s.closed then "closed" else "running"

structure PtyRegistry where
  nextId : ℕ
  sessions : Table String PtySession

def geometryInBounds (cols rows : ℕ) : Bool :=
  20 ≤ cols && cols ≤ 500 && 5 ≤ rows && rows ≤ 300

def maxWriteBytes : ℕ := 8192

namespace PtyRegistry

def new : PtyRegistry := ⟨1, ∅⟩

def sessionId (ms seq : ℕ) : String := "pty-" ++ toString ms ++ "-" ++ toString seq

variable (r : PtyRegistry) (machine : Machine)

def create (shell : Option String) (cols rows : ℕ) : Except PtyError PtySession × PtyRegistry :=
  if geometryInBounds cols rows = false then (.error .invalidGeometry, r)
  else if machine.resolvesShell shell = false then (.error .invalidShell, r)
  else
    let id := sessionId machine.idMs r.nextId
    let session : PtySession := ⟨id, cols, rows, machine.nowMs, none, false, none⟩
    if machine.spawns = false then
      (.error .spawnUnavailable, { r with nextId := r.nextId + 1 })
    else (.ok session, ⟨r.nextId + 1, r.sessions.insert id session⟩)

variable (id : String)

def operate (change : PtySession → PtySession) : Except PtyError PtySession × PtyRegistry :=
  match r.sessions.lookup id with
  | none => (.error .unknownSession, r)
  | some session =>
    if session.closed then (.error .unknownSession, r)
    else
      match machine.failure with
      | some e => (.error e, r)
      | none =>
        let changed := { change session with lastActivityUnixMs := some machine.nowMs }
        (.ok changed, { r with sessions := r.sessions.insert id changed })

def write (id data : String) : Except PtyError PtySession × PtyRegistry :=
  if maxWriteBytes < data.utf8ByteSize then (.error .writeTooLarge, r)
  else r.operate machine id fun session => session

def resize (cols rows : ℕ) : Except PtyError PtySession × PtyRegistry :=
  if geometryInBounds cols rows = false then (.error .invalidGeometry, r)
  else r.operate machine id fun session => { session with cols := cols, rows := rows }

def report : Except PtyError PtySession :=
  match r.sessions.lookup id with
  | none => .error .unknownSession
  | some session => .ok session

def close : Except PtyError Unit × PtyRegistry :=
  match r.sessions.lookup id with
  | none => (.error .unknownSession, r)
  | some _ => (.ok (), { r with sessions := r.sessions.erase id })

def list : List PtySession := r.sessions.values

end PtyRegistry

inductive Fork
  | failed
  | child
  | parent (pid : ℕ)

structure SystemCalls where
  posixOpenpt : Option ℕ
  grantpt : Bool
  unlockpt : Bool
  ptsname : Option String
  openSlave : Option ℕ
  fork : Fork

structure PlatformSession where
  masterFd : ℕ
  child : ℕ
  deriving DecidableEq

variable (k : SystemCalls) (fds : Finset ℕ) (shellPath : String) (cols rows : UInt16)
  (cwd : Option String)

def openptyPair : Option (ℕ × ℕ) × Finset ℕ :=
  match k.posixOpenpt with
  | none => (none, fds)
  | some master =>
    let fds := insert master fds
    if k.grantpt = false then (none, fds.erase master)
    else if k.unlockpt = false then (none, fds.erase master)
    else if k.ptsname = none then (none, fds.erase master)
    else
      match k.openSlave with
      | none => (none, fds.erase master)
      | some slave => (some (master, slave), insert slave fds)

def setWinsize (_fd : ℕ) (_cols _rows : UInt16) (fds : Finset ℕ) : Finset ℕ := fds

def hasNul (text : String) : Bool := text.toList.contains '\x00'

/-- `none` is the branch of the child, which ends in `execvp` or `_exit`. -/
def spawn : Option (Except PtyError PlatformSession) × Finset ℕ :=
  match openptyPair k fds with
  | (none, fds) => (some (.error .spawnUnavailable), fds)
  | (some (master, slave), fds) =>
    let fds := setWinsize master cols rows fds
    if hasNul shellPath then (some (.error .invalidShell), fds)
    else if cwd.any hasNul then (some (.error .invalidShell), fds)
    else
      match k.fork with
      | .failed => (some (.error .spawnUnavailable), (fds.erase master).erase slave)
      | .child => (none, (fds.erase slave).erase master)
      | .parent pid => (some (.ok ⟨master, pid⟩), fds.erase slave)

structure SystemCalls.Fresh : Prop where
  master : ∀ m ∈ k.posixOpenpt, m ∉ fds
  slave : ∀ m ∈ k.posixOpenpt, ∀ s ∈ k.openSlave, s ∉ insert m fds

/-- A failed call leaves open what was open before, a successful one the master too. -/
def Tidy : Option (Except PtyError PlatformSession) × Finset ℕ → Prop
  | (none, _) => True
  | (some (.error _), left) => left = fds
  | (some (.ok session), left) => left = insert session.masterFd fds

variable {k fds}

theorem openptyPair_cases (hfr : k.Fresh fds) :
    openptyPair k fds = (none, fds) ∨ ∃ master slave, master ∉ fds ∧ slave ∉ insert master fds ∧
      openptyPair k fds = (some (master, slave), insert slave (insert master fds)) := by
  unfold openptyPair
  cases hms : k.posixOpenpt with
  | none => exact .inl rfl
  | some master =>
    have hnew := hfr.master master hms
    have hea : (insert master fds).erase master = fds := Finset.erase_insert hnew
    dsimp only
    rw [hea]
    split_ifs
    · exact .inl rfl
    · exact .inl rfl
    · exact .inl rfl
    · cases hslave : k.openSlave with
      | none => exact .inl rfl
      | some slave =>
        exact .inr ⟨master, slave, hnew, hfr.slave master hms slave hslave, rfl⟩

/-- Every outcome of the calls: nothing is left open exactly when there was no
terminal to release, or neither text has a NUL in it. -/
theorem spawn_tidy_iff (k : SystemCalls) (fds : Finset ℕ) (hfresh : k.Fresh fds)
    (shellPath : String) (cols rows : UInt16) (cwd : Option String) :
    Tidy fds (spawn k fds shellPath cols rows cwd) ↔
      (openptyPair k fds).1 = none ∨ hasNul shellPath = false ∧ cwd.any hasNul = false := by
  rcases openptyPair_cases hfresh with hpair | ⟨master, slave, hm, hs, hpair⟩
  · simp [spawn, hpair, Tidy]
  have hlk : insert slave (insert master fds) ≠ fds := by
    intro h
    exact hm (h ▸ Finset.mem_insert_of_mem (Finset.mem_insert_self _ _))
  have hbt : ((insert slave (insert master fds)).erase master).erase slave = fds := by
    rw [Finset.erase_right_comm, Finset.erase_insert hs, Finset.erase_insert hm]
  rw [hpair, or_iff_right (Option.some_ne_none _), spawn, hpair]
  split_ifs with hsh hcwd
  · exact iff_of_false hlk fun h => absurd (hsh.symm.trans h.1) nofun
  · exact iff_of_false hlk fun h => absurd (hcwd.symm.trans h.2) nofun
  refine iff_of_true ?_ ⟨eq_false_of_ne_true hsh, eq_false_of_ne_true hcwd⟩
  cases k.fork with
  | failed => exact hbt
  | child => trivial
  | parent pid => exact Finset.erase_insert hs

def terminalCalls : SystemCalls := ⟨some 3, true, true, some "/dev/pts/0", some 4, .parent 100⟩

theorem terminalCalls_fresh : terminalCalls.Fresh {0, 1, 2} where
  master := by decide
  slave := by decide

theorem spawn_tidy_iff_shell :
    Tidy {0, 1, 2} (spawn terminalCalls {0, 1, 2} "/bin/sh" 80 24 (some "/tmp")) :=
  (spawn_tidy_iff terminalCalls {0, 1, 2} terminalCalls_fresh "/bin/sh" 80 24 (some "/tmp")).mpr
    (.inr (by decide))

/-- A working directory with a NUL in it: master and slave stay open. -/
theorem spawn_leaves_terminal_open :
    let returned := spawn terminalCalls {0, 1, 2} "/bin/sh" 80 24 (some "/tmp/\x00")
    returned = (some (.error .invalidShell), {0, 1, 2, 3, 4}) ∧ ¬ Tidy {0, 1, 2} returned := by
  intro returned
  have hlf : returned = (some (.error .invalidShell), {0, 1, 2, 3, 4}) := by decide
  refine ⟨hlf, ?_⟩
  rw [hlf]
  show ¬ ({0, 1, 2, 3, 4} : Finset ℕ) = {0, 1, 2}
  decide

end DshDesktop.Terminal
