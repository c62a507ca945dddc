import ModernCppHw.Socks5.Process

/-! How `main` comes to serve: the options, the signals, the listening socket, the limits,
and a ring for each thread. What fails on the way either ends the process or is unwound. -/

set_option autoImplicit false

namespace ModernCppHw.Socks5

inductive Signal where
  | sigpipe
  | sigint
  | sigquit
  deriving DecidableEq

inductive Resource where
  | nofile
  | memlock
  deriving DecidableEq

/-- The calls that may fail. The rings belong to threads, the first of which is that of
`main`; no call is made twice. -/
inductive Syscall where
  | signal (signum : Signal)
  | socketIpv4
  | setsockoptReuseaddr
  | bind (port : UInt16)
  | listen (maxqueue : Nat)
  | getrlimit (resource : Resource)
  | setrlimit (resource : Resource) (cur max : Nat)
  | createThread (thread : Nat)
  | queueInit (thread entries : Nat) (polling : Bool)
  | registerBuffers (thread count : Nat)
  deriving DecidableEq

/-- What the system answers. -/
structure Kernel where
  succeeds : Syscall → Bool
  rlimMax : Resource → Nat
  geteuid : Nat
  hardwareConcurrency : Nat

/-- There is no ring without entries. -/
def Kernel.RefusesEmpty (kernel : Kernel) : Prop :=
  ∀ thread polling, kernel.succeeds (.queueInit thread 0 polling) = false

structure Params where
  threadsCount : Nat
  port : UInt16
  kernelPolling : Bool

/-- What goes up the stack, if the process goes on at all. -/
inductive Unwinding where
  | exception (what : String)
  | terminated
  deriving DecidableEq

/-- The state is the descriptors that are open. -/
abbrev Startup := EStateM Unwinding (List Fd)

/-- The lowest number that is not in use. -/
def lowest (files : List Fd) : Fd :=
  (((List.range (files.length + 1)).map Int.ofNat).find? (· ∉ files)).getD 0

def openFile : Startup Fd := fun files => .ok (lowest files) (files ++ [lowest files])

/-- A descriptor is closed when what runs in the scope of its owner throws. -/
def guarding {Value : Type} (fd : Fd) (body : Startup Value) : Startup Value := fun files =>
  match body files with
  | .ok value later => .ok value later
  | .error (.exception what) later => .error (.exception what) (later.erase fd)
  | .error .terminated later => .error .terminated later

/-- What a thread constructs its ring with. -/
structure Ring where
  nconnections : Nat
  isRoot : Bool
  listenFd : Fd
  deriving DecidableEq

/-- How it ends, or that it does not. -/
inductive Ending where
  | returned (exitCode : Nat) (unhandled : Option String) (files : List Fd)
  | terminated
  | undefined
  | serving (rings : List Ring) (files : List Fd)
  deriving DecidableEq

def htons (port : UInt16) : UInt16 := port <<< 8 ||| port >>> 8

section Source

variable (kernel : Kernel)

/-- `parse_cmd_line`, of what the options hold, where they can be parsed. -/
def parseCmdLine (options : Option (Nat × UInt16 × Bool)) : Option Params :=
  options.map fun values =>
    { threadsCount := if values.1 = 0 then kernel.hardwareConcurrency else values.1
      port := values.2.1
      kernelPolling := values.2.2 }

/-- The wrappers throw where the call fails. -/
def wrapped (call : Syscall) (what : String) : Startup Unit :=
  if kernel.succeeds call then return () else throw (.exception what)

def socketIpv4 : Startup Fd := do
  wrapped kernel .socketIpv4 "socket"
  openFile

/-- `MainSocket`, of which the base is destroyed if the body of the constructor throws. -/
def mainSocket (port : UInt16) (maxqueue : Nat) : Startup Fd := do
  let fd ← socketIpv4 kernel
  guarding fd do
    wrapped kernel .setsockoptReuseaddr "setsockopt"
    wrapped kernel (.bind (htons port)) "bind"
    wrapped kernel (.listen maxqueue) "listen"
  return fd

/-- The new limit, of which the hard one stays as it is. -/
def raiseLimit (resource : Resource) (cur : Nat) (getWhat setWhat : String) : Startup Unit := do
  wrapped kernel (.getrlimit resource) getWhat
  wrapped kernel (.setrlimit resource cur (kernel.rlimMax resource)) setWhat

def raiseLimits : Startup Unit := do
  raiseLimit kernel .nofile fileLimit "getrlimit nofile" "setrlimit nofile"
  raiseLimit kernel .memlock (2 ^ 16) "getrlimit memlock" "setrlimit memlock"

/-- `IoUring`. The destructor does not run for what the constructor has not completed, so a
ring whose buffers cannot be registered is not exited. -/
def ioUring (thread : Nat) (socket : Fd) (nconnections : Nat) (kernelPolling : Bool) :
    Startup Ring := do
  let isRoot := kernel.geteuid = 0
  if kernelPolling ∧ ¬ isRoot then
    throw (.exception "You need root privileges to do kernel polling.")
  wrapped kernel (.queueInit thread nconnections kernelPolling) "io_uring_queue_init_params"
  let _ ← openFile
  if isRoot then
    wrapped kernel (.registerBuffers thread (2 * nconnections)) "io_uring_register_buffers"
  return { nconnections, isRoot, listenFd := socket }

/-- No exception leaves the function of a thread, nor the scope of threads that run. -/
def terminating {Value : Type} (body : Startup Value) : Startup Value := fun files =>
  match body files with
  | .ok value later => .ok value later
  | .error _ later => .error .terminated later

/-- `thread = std::thread(...)`. Those that have been created before are not joined where
this throws. -/
def createThread (thread : Nat) : Startup Unit :=
  let create := wrapped kernel (.createThread thread) "Resource temporarily unavailable"
  if thread = 1 then create else terminating create

/-- The threads besides that of `main`, from this one on. -/
def startThreads (socket : Fd) (nconnections : Nat) (kernelPolling : Bool) (thread : Nat) :
    Nat → Startup (List Ring)
  | 0 => return []
  | more + 1 => do
      createThread kernel thread
      let ring ← terminating (ioUring kernel thread socket nconnections kernelPolling)
      return ring :: (← startThreads socket nconnections kernelPolling (thread + 1) more)

/-- `threads` and `thread_function`, in which the loop then runs. -/
def runThreads (socket : Fd) (threadsCount nconnections : Nat) (kernelPolling : Bool) :
    Startup (List Ring) := do
  let others ← startThreads kernel socket nconnections kernelPolling 1 (threadsCount - 1)
  let function := ioUring kernel 0 socket nconnections kernelPolling
  let ring ← if others.isEmpty then function else terminating function
  return ring :: others

/-- The scope of `server_socket`. -/
def serveFrom (serverSocket : Fd) (params : Params) : Startup (List Ring) := do
  raiseLimits kernel
  runThreads kernel serverSocket params.threadsCount (oneThreadConnections params.threadsCount)
    params.kernelPolling

def serve (params : Params) : Startup (List Ring) := do
  let serverSocket ← mainSocket kernel params.port maxConnections
  guarding serverSocket (serveFrom kernel serverSocket params)

/-- What is caught is logged. -/
def ended : EStateM.Result Unwinding (List Fd) (List Ring) → Ending
  | .ok rings files => .serving rings files
  | .error (.exception what) files => .returned 0 (some what) files
  | .error .terminated _ => .terminated

/-- `main`. The capacity is divided by the number of threads, which is 0 where the hardware
does not tell it and the options do not either. -/
def main (options : Option (Nat × UInt16 × Bool)) (files : List Fd) : Ending :=
  match parseCmdLine kernel options with
  | none => .returned 1 none files
  | some params =>
      if ¬ kernel.succeeds (.signal .sigpipe) then .returned 1 none files
      else if ¬ kernel.succeeds (.signal .sigint) then .returned 1 none files
      else if ¬ kernel.succeeds (.signal .sigquit) then .returned 1 none files
      else if params.threadsCount = 0 then .undefined
      else ended ((serve kernel params).run files)

end Source

/-! Each descriptor has the lowest number, so those that are open are numbered through. -/

def numbered (count : Nat) : List Fd := (List.range count).map Int.ofNat

variable {kernel : Kernel} {count : Nat}

theorem mem_numbered {number : Nat} : (number : Fd) ∈ numbered count ↔ number < count := by
  constructor
  · intro member
    obtain ⟨same, below, equal⟩ := List.mem_map.mp member
    rw [Int.ofNat.inj equal] at below
    exact List.mem_range.mp below
  · exact fun below => List.mem_map.mpr ⟨number, List.mem_range.mpr below, rfl⟩

theorem numbered_succ (count : Nat) : numbered (count + 1) = numbered count ++ [(count : Fd)] := by
  rw [numbered, List.range_succ, List.map_append]
  rfl

theorem lowest_numbered : lowest (numbered count) = count := by
  have length : (numbered count).length = count := by
    rw [numbered, List.length_map, List.length_range]
  have used : (numbered count).find? (· ∉ numbered count) = none := by
    rw [List.find?_eq_none]
    intro fd member
    simpa using member
  have free : (count : Fd) ∉ numbered count := fun member =>
    absurd (mem_numbered.mp member) (Nat.lt_irrefl count)
  change ((numbered ((numbered count).length + 1)).find? (· ∉ numbered count)).getD 0 = _
  rw [length, numbered_succ, List.find?_append, used]
  simp [free]

theorem erase_numbered {more : List Fd} :
    (numbered (count + 1) ++ more).erase (count : Fd) = numbered count ++ more := by
  have free : (count : Fd) ∉ numbered count := fun member =>
    absurd (mem_numbered.mp member) (Nat.lt_irrefl count)
  rw [numbered_succ, List.append_assoc, List.erase_append_right _ free]
  simp

theorem erase_numbered_last : (numbered (count + 1)).erase (count : Fd) = numbered count := by
  have erased : (numbered (count + 1) ++ []).erase (count : Fd) = numbered count ++ [] :=
    erase_numbered
  rwa [List.append_nil, List.append_nil] at erased

theorem run_openFile :
    openFile.run (numbered count) = .ok (count : Fd) (numbered (count + 1)) := by
  rw [numbered_succ]
  change EStateM.Result.ok (lowest (numbered count))
    (numbered count ++ [lowest (numbered count)]) = _
  rw [lowest_numbered]

/-! What succeeds where the system grants all that is asked, and what is left where it does
not. -/

def Kernel.GrantsAll (kernel : Kernel) (calls : List Syscall) : Prop :=
  ∀ call ∈ calls, kernel.succeeds call = true

def socketCalls (port : UInt16) : List Syscall :=
  [.socketIpv4, .setsockoptReuseaddr, .bind (htons port), .listen maxConnections]

def limitCalls (kernel : Kernel) : List Syscall :=
  [.getrlimit .nofile, .setrlimit .nofile fileLimit (kernel.rlimMax .nofile),
    .getrlimit .memlock, .setrlimit .memlock (2 ^ 16) (kernel.rlimMax .memlock)]

/-- A ring is constructed, in one of the threads. -/
structure Kernel.GrantsRing (kernel : Kernel) (thread nconnections : Nat) (kernelPolling : Bool) :
    Prop where
  privileged : kernelPolling = true → kernel.geteuid = 0
  queue : kernel.succeeds (.queueInit thread nconnections kernelPolling) = true
  buffers : kernel.geteuid = 0 → kernel.succeeds (.registerBuffers thread (2 * nconnections)) = true

/-- All that is asked on the way. -/
structure Kernel.Grants (kernel : Kernel) (params : Params) : Prop where
  socket : kernel.GrantsAll (socketCalls params.port)
  limits : kernel.GrantsAll (limitCalls kernel)
  created : ∀ thread, 0 < thread → thread < params.threadsCount →
    kernel.succeeds (.createThread thread) = true
  rings : ∀ thread < params.threadsCount,
    kernel.GrantsRing thread (oneThreadConnections params.threadsCount) params.kernelPolling

/-- An action that makes these calls, and throws at the first that fails. -/
structure Asks (kernel : Kernel) (action : Startup Unit) (calls : List Syscall) : Prop where
  granted : kernel.GrantsAll calls → ∀ files, action.run files = .ok () files
  refused : ¬ kernel.GrantsAll calls → ∀ files, ∃ what,
    action.run files = .error (.exception what) files

theorem Kernel.grantsAll_cons {call : Syscall} {rest : List Syscall} :
    kernel.GrantsAll (call :: rest) ↔ kernel.succeeds call = true ∧ kernel.GrantsAll rest := by
  simp [GrantsAll]

namespace Asks

variable {action next : Startup Unit} {calls more : List Syscall}

theorem wrapped (call : Syscall) (what : String) :
    Asks kernel (wrapped kernel call what) [call] where
  granted := by
    intro granted files
    rw [Socks5.wrapped, if_pos (granted call List.mem_cons_self)]
    rfl
  refused := by
    intro refused files
    have fails : ¬ kernel.succeeds call = true := fun succeeds =>
      refused fun other among => List.mem_singleton.mp among ▸ succeeds
    rw [Socks5.wrapped, if_neg fails]
    exact ⟨what, rfl⟩

theorem bind (first : Asks kernel action calls) (second : Asks kernel next more) :
    Asks kernel (do action; next) (calls ++ more) where
  granted := by
    intro granted files
    rw [EStateM.run_bind,
      first.granted fun call among => granted call (List.mem_append_left _ among)]
    exact second.granted (fun call among => granted call (List.mem_append_right _ among)) files
  refused := by
    intro refused files
    rw [EStateM.run_bind]
    by_cases granted : kernel.GrantsAll calls
    · rw [first.granted granted]
      refine second.refused (fun others => refused fun call among => ?_) files
      exact (List.mem_append.mp among).elim (granted call) (others call)
    · obtain ⟨what, thrown⟩ := first.refused granted files
      exact ⟨what, by rw [thrown]⟩

end Asks

theorem raiseLimit_asks (resource : Resource) (cur : Nat) (getWhat setWhat : String) :
    Asks kernel (raiseLimit kernel resource cur getWhat setWhat)
      [.getrlimit resource, .setrlimit resource cur (kernel.rlimMax resource)] :=
  (Asks.wrapped _ _).bind (.wrapped _ _)

section Runs

variable {Value Result : Type} {body : Startup Value} {next : Value → Startup Result}
  {value : Value} {files later : List Fd} {what : String} {unwinding : Unwinding}

theorem run_bind_of_ok (ran : body.run files = .ok value later) :
    (do next (← body)).run files = (next value).run later := by
  rw [EStateM.run_bind, ran]

theorem run_bind_of_error (ran : body.run files = .error unwinding later) :
    (do next (← body)).run files = .error unwinding later := by
  rw [EStateM.run_bind, ran]

theorem run_guarding_of_ok (fd : Fd) (ran : body.run files = .ok value later) :
    (guarding fd body).run files = .ok value later := by
  rw [EStateM.run] at ran
  simp only [guarding, EStateM.run, ran]

theorem run_guarding_of_exception (fd : Fd)
    (ran : body.run files = .error (.exception what) later) :
    (guarding fd body).run files = .error (.exception what) (later.erase fd) := by
  rw [EStateM.run] at ran
  simp only [guarding, EStateM.run, ran]

theorem run_guarding_of_terminated (fd : Fd) (ran : body.run files = .error .terminated later) :
    (guarding fd body).run files = .error .terminated later := by
  rw [EStateM.run] at ran
  simp only [guarding, EStateM.run, ran]

theorem run_terminating_of_ok (ran : body.run files = .ok value later) :
    (terminating body).run files = .ok value later := by
  rw [EStateM.run] at ran
  simp only [terminating, EStateM.run, ran]

theorem run_terminating_of_error (ran : body.run files = .error unwinding later) :
    (terminating body).run files = .error .terminated later := by
  rw [EStateM.run] at ran
  simp only [terminating, EStateM.run, ran]

end Runs

/-! The listening socket. -/

theorem run_wrapped {call : Syscall} {what : String} {files : List Fd}
    (granted : kernel.succeeds call = true) : (wrapped kernel call what).run files = .ok () files :=
  (Asks.wrapped call what).granted
    (Kernel.grantsAll_cons.mpr ⟨granted, fun _ none => absurd none List.not_mem_nil⟩) files

theorem run_wrapped_refused {call : Syscall} {what : String} {files : List Fd}
    (refused : ¬ kernel.succeeds call = true) :
    ∃ thrown, (wrapped kernel call what).run files = .error (.exception thrown) files :=
  (Asks.wrapped call what).refused (fun all => refused (all _ List.mem_cons_self)) files

theorem mainSocket_asks {port : UInt16} :
    Asks kernel (do
        wrapped kernel .setsockoptReuseaddr "setsockopt"
        wrapped kernel (.bind (htons port)) "bind"
        wrapped kernel (.listen maxConnections) "listen")
      [.setsockoptReuseaddr, .bind (htons port), .listen maxConnections] :=
  (Asks.wrapped _ _).bind ((Asks.wrapped _ _).bind (.wrapped _ _))

theorem run_socketIpv4 (granted : kernel.succeeds .socketIpv4 = true) :
    (socketIpv4 kernel).run (numbered count) = .ok (count : Fd) (numbered (count + 1)) :=
  (run_bind_of_ok (run_wrapped granted)).trans run_openFile

theorem mainSocket_granted {port : UInt16} (count : Nat)
    (granted : kernel.GrantsAll (socketCalls port)) :
    (mainSocket kernel port maxConnections).run (numbered count) =
      .ok (count : Fd) (numbered (count + 1)) := by
  obtain ⟨opened, others⟩ := Kernel.grantsAll_cons.mp granted
  have constructed := run_guarding_of_ok count
    (mainSocket_asks.granted others (numbered (count + 1)))
  exact (run_bind_of_ok (run_socketIpv4 opened)).trans (run_bind_of_ok constructed)

theorem mainSocket_refused {port : UInt16} (count : Nat)
    (refused : ¬ kernel.GrantsAll (socketCalls port)) :
    ∃ what, (mainSocket kernel port maxConnections).run (numbered count) =
      .error (.exception what) (numbered count) := by
  by_cases opened : kernel.succeeds .socketIpv4 = true
  · obtain ⟨what, thrown⟩ := mainSocket_asks.refused
      (fun others => refused (Kernel.grantsAll_cons.mpr ⟨opened, others⟩)) (numbered (count + 1))
    have unwound := run_guarding_of_exception count thrown
    rw [erase_numbered_last] at unwound
    exact ⟨what, (run_bind_of_ok (run_socketIpv4 opened)).trans (run_bind_of_error unwound)⟩
  · obtain ⟨what, thrown⟩ := run_wrapped_refused opened
    exact ⟨what, run_bind_of_error (run_bind_of_error thrown)⟩

/-! The rings. -/

/-- The buffers of a ring cannot be registered, so that it stays. -/
structure Kernel.LosesRing (kernel : Kernel) (thread nconnections : Nat) (kernelPolling : Bool) :
    Prop where
  isRoot : kernel.geteuid = 0
  queue : kernel.succeeds (.queueInit thread nconnections kernelPolling) = true
  refused : ¬ kernel.succeeds (.registerBuffers thread (2 * nconnections)) = true

section Rings

variable {thread nconnections : Nat} {kernelPolling : Bool} {socket : Fd}

theorem ioUring_granted (granted : kernel.GrantsRing thread nconnections kernelPolling) :
    (ioUring kernel thread socket nconnections kernelPolling).run (numbered count) =
      .ok ⟨nconnections, kernel.geteuid = 0, socket⟩ (numbered (count + 1)) := by
  have allowed : ¬ (kernelPolling = true ∧ ¬ kernel.geteuid = 0) := fun unprivileged =>
    unprivileged.2 (granted.privileged unprivileged.1)
  simp only [ioUring, if_neg allowed]
  refine (run_bind_of_ok (run_wrapped granted.queue)).trans
    ((run_bind_of_ok run_openFile).trans ?_)
  by_cases isRoot : kernel.geteuid = 0
  · rw [if_pos isRoot]
    exact run_bind_of_ok (run_wrapped (granted.buffers isRoot))
  · rw [if_neg isRoot]
    rfl

theorem ioUring_refused (refused : ¬ kernel.GrantsRing thread nconnections kernelPolling) :
    ∃ what later, (ioUring kernel thread socket nconnections kernelPolling).run (numbered count) =
      .error (.exception what) later ∧ (later = numbered count ∨
        later = numbered (count + 1) ∧ kernel.LosesRing thread nconnections kernelPolling) := by
  by_cases unprivileged : kernelPolling = true ∧ ¬ kernel.geteuid = 0
  · simp only [ioUring, if_pos unprivileged]
    exact ⟨_, _, rfl, .inl rfl⟩
  simp only [ioUring, if_neg unprivileged]
  by_cases queue : kernel.succeeds (.queueInit thread nconnections kernelPolling) = true
  · by_cases buffers : kernel.geteuid = 0 ∧
        ¬ kernel.succeeds (.registerBuffers thread (2 * nconnections)) = true
    · obtain ⟨what, thrown⟩ := run_wrapped_refused buffers.2
      refine ⟨what, _, (run_bind_of_ok (run_wrapped queue)).trans
        ((run_bind_of_ok run_openFile).trans ?_), .inr ⟨rfl, buffers.1, queue, buffers.2⟩⟩
      rw [if_pos buffers.1]
      exact run_bind_of_error thrown
    · refine absurd ⟨fun polling => ?_, queue, fun isRoot => ?_⟩ refused
      · exact Decidable.not_not.mp fun unroot => unprivileged ⟨polling, unroot⟩
      · exact Decidable.not_not.mp fun fails => buffers ⟨isRoot, fails⟩
  · obtain ⟨what, thrown⟩ := run_wrapped_refused queue
    exact ⟨what, _, run_bind_of_error thrown, .inl rfl⟩

/-- What a thread has constructed its ring with. -/
def ringOf (kernel : Kernel) (socket : Fd) (nconnections : Nat) : Ring :=
  ⟨nconnections, kernel.geteuid = 0, socket⟩

/-- Besides the thread of `main`, these are created and construct their rings. -/
def Kernel.GrantsThreads (kernel : Kernel) (nconnections : Nat) (kernelPolling : Bool)
    (thread more : Nat) : Prop :=
  ∀ other, thread ≤ other → other < thread + more →
    kernel.succeeds (.createThread other) = true ∧
      kernel.GrantsRing other nconnections kernelPolling

theorem Kernel.grantsThreads_succ {more : Nat} :
    kernel.GrantsThreads nconnections kernelPolling thread (more + 1) ↔
      kernel.succeeds (.createThread thread) = true ∧
        kernel.GrantsRing thread nconnections kernelPolling ∧
          kernel.GrantsThreads nconnections kernelPolling (thread + 1) more := by
  constructor
  · intro all
    obtain ⟨created, ring⟩ := all thread (Nat.le_refl _) (by omega)
    exact ⟨created, ring, fun other after before => all other (by omega) (by omega)⟩
  · intro all other after before
    obtain ⟨created, ring, others⟩ := all
    by_cases same : other = thread
    · exact same ▸ ⟨created, ring⟩
    · exact others other (by omega) (by omega)

theorem run_createThread (granted : kernel.succeeds (.createThread thread) = true)
    {files : List Fd} : (createThread kernel thread).run files = .ok () files := by
  rw [createThread]
  split
  · exact run_wrapped granted
  · exact run_terminating_of_ok (run_wrapped granted)

theorem startThreads_granted {more : Nat}
    (granted : kernel.GrantsThreads nconnections kernelPolling thread more) :
    (startThreads kernel socket nconnections kernelPolling thread more).run (numbered count) =
      .ok (List.replicate more (ringOf kernel socket nconnections)) (numbered (count + more)) := by
  induction more generalizing thread count with
  | zero => rfl
  | succ more ih =>
      obtain ⟨create, ring, others⟩ := Kernel.grantsThreads_succ.mp granted
      have rest : (startThreads kernel socket nconnections kernelPolling (thread + 1) more).run
          (numbered (count + 1)) = .ok (List.replicate more (ringOf kernel socket nconnections))
            (numbered (count + 1 + more)) := ih others
      rw [Nat.add_right_comm] at rest
      exact (run_bind_of_ok (run_createThread create)).trans
        ((run_bind_of_ok (run_terminating_of_ok (ioUring_granted ring))).trans
          (run_bind_of_ok rest))

/-- Unless the first of them cannot be created, the process is ended. -/
theorem startThreads_refused {more : Nat} (socket : Fd) (count : Nat) (after : 0 < thread)
    (refused : ¬ kernel.GrantsThreads nconnections kernelPolling thread more) :
    ∃ unwinding later, (startThreads kernel socket nconnections kernelPolling thread more).run
        (numbered count) = .error unwinding later ∧
      (unwinding = .terminated ∨
        later = numbered count ∧ thread = 1 ∧ ∃ what, unwinding = .exception what) := by
  induction more generalizing thread count with
  | zero => exact absurd (fun other _ _ => by omega) refused
  | succ more ih =>
      by_cases create : kernel.succeeds (.createThread thread) = true
      · by_cases ring : kernel.GrantsRing thread nconnections kernelPolling
        · have others := fun others =>
            refused (Kernel.grantsThreads_succ.mpr ⟨create, ring, others⟩)
          obtain ⟨unwinding, later, thrown, kind⟩ := ih (count + 1) (Nat.succ_pos thread) others
          refine ⟨unwinding, later, (run_bind_of_ok (run_createThread create)).trans
            ((run_bind_of_ok (run_terminating_of_ok (ioUring_granted ring))).trans
              (run_bind_of_error thrown)), .inl ?_⟩
          rcases kind with terminated | ⟨-, first, -⟩
          · exact terminated
          · omega
        · obtain ⟨what, later, thrown, -⟩ := ioUring_refused ring
          exact ⟨_, _, (run_bind_of_ok (run_createThread create)).trans
            (run_bind_of_error (run_terminating_of_error thrown)), .inl rfl⟩
      · obtain ⟨what, thrown⟩ := run_wrapped_refused create
        by_cases first : thread = 1
        · have failed : (createThread kernel thread).run (numbered count) =
              .error (.exception what) (numbered count) := by
            rw [createThread, if_pos first]
            exact thrown
          exact ⟨_, _, run_bind_of_error failed, .inr ⟨rfl, first, what, rfl⟩⟩
        · have failed : (createThread kernel thread).run (numbered count) =
              .error .terminated (numbered count) := by
            rw [createThread, if_neg first]
            exact run_terminating_of_error thrown
          exact ⟨_, _, run_bind_of_error failed, .inl rfl⟩

/-- How what runs may be left: the process ends, as it only does with several threads, or
an exception leaves what was open open, and a single ring that was lost. -/
inductive Abandoned (kernel : Kernel) (threadsCount nconnections : Nat) (kernelPolling : Bool)
    (count : Nat) : Unwinding → List Fd → Prop where
  | ended {later : List Fd} : 1 < threadsCount →
      Abandoned kernel threadsCount nconnections kernelPolling count .terminated later
  | thrown {what : String} :
      Abandoned kernel threadsCount nconnections kernelPolling count (.exception what)
        (numbered count)
  | lost {what : String} : threadsCount = 1 →
      kernel.LosesRing 0 nconnections kernelPolling →
      Abandoned kernel threadsCount nconnections kernelPolling count (.exception what)
        (numbered (count + 1))

variable {threadsCount : Nat}

theorem runThreads_granted (socket : Fd) (count : Nat) (positive : 0 < threadsCount)
    (others : kernel.GrantsThreads nconnections kernelPolling 1 (threadsCount - 1))
    (own : kernel.GrantsRing 0 nconnections kernelPolling) :
    (runThreads kernel socket threadsCount nconnections kernelPolling).run (numbered count) =
      .ok (List.replicate threadsCount (ringOf kernel socket nconnections))
        (numbered (count + threadsCount)) := by
  obtain ⟨more, rfl⟩ := Nat.exists_eq_succ_of_ne_zero (Nat.ne_of_gt positive)
  have started : (startThreads kernel socket nconnections kernelPolling 1 more).run
      (numbered count) = .ok (List.replicate more (ringOf kernel socket nconnections))
        (numbered (count + more)) := startThreads_granted others
  have constructed : (ioUring kernel 0 socket nconnections kernelPolling).run
      (numbered (count + more)) = .ok (ringOf kernel socket nconnections)
        (numbered (count + more + 1)) := ioUring_granted own
  refine (run_bind_of_ok started).trans ?_
  split
  · exact run_bind_of_ok constructed
  · exact run_bind_of_ok (run_terminating_of_ok constructed)

theorem runThreads_refused (socket : Fd) (count : Nat) (positive : 0 < threadsCount)
    (refused : ¬ (kernel.GrantsThreads nconnections kernelPolling 1 (threadsCount - 1) ∧
      kernel.GrantsRing 0 nconnections kernelPolling)) :
    ∃ unwinding later, (runThreads kernel socket threadsCount nconnections kernelPolling).run
        (numbered count) = .error unwinding later ∧
      Abandoned kernel threadsCount nconnections kernelPolling count unwinding later := by
  by_cases others : kernel.GrantsThreads nconnections kernelPolling 1 (threadsCount - 1)
  · have own := fun own => refused ⟨others, own⟩
    have started : (startThreads kernel socket nconnections kernelPolling 1
        (threadsCount - 1)).run (numbered count) =
          .ok (List.replicate (threadsCount - 1) (ringOf kernel socket nconnections))
            (numbered (count + (threadsCount - 1))) := startThreads_granted others
    obtain ⟨what, later, thrown, left⟩ : ∃ what later, (ioUring kernel 0 socket nconnections
        kernelPolling).run (numbered (count + (threadsCount - 1))) =
          .error (.exception what) later ∧ _ := ioUring_refused own
    by_cases single : threadsCount = 1
    · subst single
      refine ⟨_, _, (run_bind_of_ok started).trans (run_bind_of_error thrown), ?_⟩
      rcases left with rfl | ⟨rfl, loses⟩
      · exact .thrown
      · exact .lost rfl loses
    · have several : (List.replicate (threadsCount - 1)
          (ringOf kernel socket nconnections)).isEmpty = false := by
        rw [List.isEmpty_replicate]
        exact decide_eq_false (by omega)
      refine ⟨.terminated, later, (run_bind_of_ok started).trans ?_, .ended (by omega)⟩
      rw [several]
      exact run_bind_of_error (run_terminating_of_error thrown)
  · obtain ⟨unwinding, later, thrown, kind⟩ :=
      startThreads_refused socket count Nat.zero_lt_one others
    refine ⟨unwinding, later, run_bind_of_error thrown, ?_⟩
    rcases kind with rfl | ⟨rfl, -, what, rfl⟩
    · refine .ended (Nat.lt_of_not_le fun single => others fun other after before => ?_)
      omega
    · exact .thrown

end Rings

/-! The listening socket stays open while the threads serve, and is closed by an exception. -/

variable {params : Params}

theorem raiseLimits_asks : Asks kernel (raiseLimits kernel) (limitCalls kernel) :=
  (raiseLimit_asks ..).bind (raiseLimit_asks ..)

theorem Kernel.Grants.threads (grants : kernel.Grants params) (positive : 0 < params.threadsCount) :
    kernel.GrantsThreads (oneThreadConnections params.threadsCount) params.kernelPolling 1
        (params.threadsCount - 1) ∧
      kernel.GrantsRing 0 (oneThreadConnections params.threadsCount) params.kernelPolling := by
  refine ⟨fun other after before => ?_, grants.rings 0 positive⟩
  exact ⟨grants.created other after (by omega), grants.rings other (by omega)⟩

theorem Kernel.Grants.of_threads (socket : kernel.GrantsAll (socketCalls params.port))
    (limits : kernel.GrantsAll (limitCalls kernel))
    (others : kernel.GrantsThreads (oneThreadConnections params.threadsCount)
      params.kernelPolling 1 (params.threadsCount - 1))
    (own : kernel.GrantsRing 0 (oneThreadConnections params.threadsCount) params.kernelPolling) :
    kernel.Grants params where
  socket := socket
  limits := limits
  created := fun thread positive below => (others thread positive (by omega)).1
  rings := by
    intro thread below
    by_cases first : thread = 0
    · exact first ▸ own
    · exact (others thread (by omega) (by omega)).2

theorem serve_granted (positive : 0 < params.threadsCount) (grants : kernel.Grants params) :
    (serve kernel params).run (numbered count) =
      .ok (List.replicate params.threadsCount
          (ringOf kernel count (oneThreadConnections params.threadsCount)))
        (numbered (count + 1 + params.threadsCount)) := by
  obtain ⟨others, own⟩ := grants.threads positive
  have limited := raiseLimits_asks.granted grants.limits (numbered (count + 1))
  have running := runThreads_granted count (count + 1) positive others own
  exact (run_bind_of_ok (mainSocket_granted count grants.socket)).trans
    (run_guarding_of_ok count ((run_bind_of_ok limited).trans running))

/-- Unless the process is ended, the listening socket is not left open. -/
theorem serve_refused (positive : 0 < params.threadsCount) (refused : ¬ kernel.Grants params) :
    ∃ unwinding later, (serve kernel params).run (numbered count) = .error unwinding later ∧
      ((unwinding = .terminated ∧ 1 < params.threadsCount) ∨
        (∃ what, unwinding = .exception what) ∧ (later = numbered count ∨
          later = numbered count ++ [((count + 1 : Nat) : Fd)] ∧ params.threadsCount = 1 ∧
            kernel.LosesRing 0 (oneThreadConnections params.threadsCount)
              params.kernelPolling)) := by
  by_cases socket : kernel.GrantsAll (socketCalls params.port)
  · have opened := mainSocket_granted count socket
    by_cases limits : kernel.GrantsAll (limitCalls kernel)
    · have limited := raiseLimits_asks.granted limits (numbered (count + 1))
      obtain ⟨unwinding, later, thrown, abandoned⟩ := runThreads_refused count (count + 1)
        positive fun both => refused (.of_threads socket limits both.1 both.2)
      have body : (serveFrom kernel count params).run (numbered (count + 1)) =
          .error unwinding later := (run_bind_of_ok limited).trans thrown
      cases abandoned with
      | ended several =>
          exact ⟨_, _, (run_bind_of_ok opened).trans (run_guarding_of_terminated count body),
            .inl ⟨rfl, several⟩⟩
      | thrown =>
          have unwound := run_guarding_of_exception count body
          rw [erase_numbered_last] at unwound
          exact ⟨_, _, (run_bind_of_ok opened).trans unwound, .inr ⟨⟨_, rfl⟩, .inl rfl⟩⟩
      | lost single loses =>
          have unwound := run_guarding_of_exception count body
          rw [numbered_succ (count + 1), erase_numbered] at unwound
          exact ⟨_, _, (run_bind_of_ok opened).trans unwound,
            .inr ⟨⟨_, rfl⟩, .inr ⟨rfl, single, loses⟩⟩⟩
    · obtain ⟨what, thrown⟩ := raiseLimits_asks.refused limits (numbered (count + 1))
      have body : (serveFrom kernel count params).run (numbered (count + 1)) =
          .error (.exception what) (numbered (count + 1)) := run_bind_of_error thrown
      have unwound := run_guarding_of_exception count body
      rw [erase_numbered_last] at unwound
      exact ⟨_, _, (run_bind_of_ok opened).trans unwound, .inr ⟨⟨what, rfl⟩, .inl rfl⟩⟩
  · obtain ⟨what, thrown⟩ := mainSocket_refused count socket
    exact ⟨_, _, run_bind_of_error thrown, .inr ⟨⟨what, rfl⟩, .inl rfl⟩⟩

/-! What `main` makes of it, from the standard streams on. -/

def signalCalls : List Syscall := [.signal .sigpipe, .signal .sigint, .signal .sigquit]

variable {options : Option (Nat × UInt16 × Bool)} {files : List Fd}

theorem main_of_unset (parsed : parseCmdLine kernel options = some params)
    (unset : ¬ kernel.GrantsAll signalCalls) :
    main kernel options files = .returned 1 none files := by
  have some_fails : ¬ (kernel.succeeds (.signal .sigpipe) = true ∧
      kernel.succeeds (.signal .sigint) = true ∧ kernel.succeeds (.signal .sigquit) = true) := by
    intro all
    refine unset fun call among => ?_
    simp only [signalCalls, List.mem_cons, List.not_mem_nil, or_false] at among
    rcases among with rfl | rfl | rfl
    · exact all.1
    · exact all.2.1
    · exact all.2.2
  simp only [main, parsed]
  split
  · rfl
  split
  · rfl
  split
  · rfl
  · rename_i sigpipe sigint sigquit
    exact absurd ⟨Decidable.not_not.mp sigpipe, Decidable.not_not.mp sigint,
      Decidable.not_not.mp sigquit⟩ some_fails

theorem main_of_set (parsed : parseCmdLine kernel options = some params)
    (set : kernel.GrantsAll signalCalls) :
    main kernel options files =
      if params.threadsCount = 0 then .undefined else ended ((serve kernel params).run files) := by
  have sigpipe := set (.signal .sigpipe) (by decide)
  have sigint := set (.signal .sigint) (by decide)
  have sigquit := set (.signal .sigquit) (by decide)
  simp only [main, parsed, sigpipe, sigint, sigquit, not_true_eq_false, if_false]

/-- A ring the system has set up has entries, so there are not too many threads. -/
theorem Kernel.Grants.bounded (grants : kernel.Grants params) (refuses : kernel.RefusesEmpty)
    (positive : 0 < params.threadsCount) : params.threadsCount ≤ maxConnections := by
  refine Nat.le_of_not_lt fun many => ?_
  have queue := (grants.rings 0 positive).queue
  rw [oneThreadConnections, Nat.div_eq_of_lt many, refuses] at queue
  cases queue

/-- The rings and the open descriptors are those the threads of a process begin with. -/
structure Threads.Begins (threads : Threads) (isRoot ndebug : Bool) (rings : List Ring)
    (files : List Fd) : Prop where
  count : rings.length = threads.count
  rings : ∀ ring ∈ rings, ring = ⟨(threads.config isRoot ndebug).nconnections,
    (threads.config isRoot ndebug).isRoot, (threads.config isRoot ndebug).listenFd⟩
  files : files = (threads.config isRoot ndebug).files

theorem serve_begins (ndebug : Bool) (refuses : kernel.RefusesEmpty)
    (positive : 0 < params.threadsCount) (grants : kernel.Grants params) :
    ∃ (threads : Threads) (rings : List Ring), threads.count = params.threadsCount ∧
      (serve kernel params).run (numbered 3) = .ok rings threads.files ∧
      threads.Begins (kernel.geteuid = 0) ndebug rings threads.files := by
  let threads : Threads := ⟨params.threadsCount, positive, grants.bounded refuses positive⟩
  refine ⟨threads, _, rfl, serve_granted positive grants, List.length_replicate, ?_, rfl⟩
  intro ring member
  exact List.eq_of_mem_replicate member

/-- No thread serves more sessions than it has buffers for. -/
theorem Process.sessions_le {threads : Threads} {isRoot ndebug : Bool} {process : Process threads}
    (reached : (threads.run isRoot ndebug).Reachable process) :
    ∑ thread, (process.rings thread).sessions.values.length ≤ maxConnections := by
  have each : ∀ thread ∈ Finset.univ, (process.rings thread).sessions.values.length ≤
      oneThreadConnections threads.count := by
    intro thread _
    have ring := reachable_rings reached thread
    have accounted := (reachable_wellFormed ring).buffers.length
    rw [reachable_config ring, List.length_map] at accounted
    exact Nat.le.intro ((Nat.add_comm _ _).trans accounted)
  have summed := Finset.sum_le_card_nsmul _ _ _ each
  rw [Finset.card_univ, Fintype.card_fin, smul_eq_mul] at summed
  exact summed.trans (Nat.mul_div_le maxConnections threads.count)

/-- What `main` comes to, with what each ending is due to. It returns with `EXIT_FAILURE` if
nothing was thrown, and with `EXIT_SUCCESS` if something was; then all that was opened is
closed, besides a ring whose buffers could not be registered. -/
inductive Decided (kernel : Kernel) (options : Option (Nat × UInt16 × Bool)) (ndebug : Bool) :
    Ending → Prop where
  | refused : (∀ params, parseCmdLine kernel options = some params →
        ¬ kernel.GrantsAll signalCalls) →
      Decided kernel options ndebug (.returned 1 none (numbered 3))
  | undivided {params : Params} : parseCmdLine kernel options = some params →
      kernel.GrantsAll signalCalls → params.threadsCount = 0 →
      Decided kernel options ndebug .undefined
  | serving {params : Params} {threads : Threads} {rings : List Ring} :
      parseCmdLine kernel options = some params → kernel.GrantsAll signalCalls →
      kernel.Grants params → threads.count = params.threadsCount →
      threads.Begins (kernel.geteuid = 0) ndebug rings threads.files →
      (∀ process, (threads.run (kernel.geteuid = 0) ndebug).Reachable process →
        ∑ thread, (process.rings thread).sessions.values.length ≤ maxConnections) →
      Decided kernel options ndebug (.serving rings threads.files)
  | unwound {params : Params} {what : String} {files : List Fd} :
      parseCmdLine kernel options = some params → kernel.GrantsAll signalCalls →
      0 < params.threadsCount → ¬ kernel.Grants params →
      (files = numbered 3 ∨ files = numbered 3 ++ [4] ∧ params.threadsCount = 1 ∧
        kernel.LosesRing 0 maxConnections params.kernelPolling) →
      Decided kernel options ndebug (.returned 0 (some what) files)
  | terminated {params : Params} : parseCmdLine kernel options = some params →
      kernel.GrantsAll signalCalls → 1 < params.threadsCount → ¬ kernel.Grants params →
      Decided kernel options ndebug .terminated

/-- However the system answers, the start is decided so: in particular the threads serve, at
the beginning of a process, exactly if all they ask for is granted. -/
theorem startup_decided {kernel : Kernel} (refuses : kernel.RefusesEmpty)
    (options : Option (Nat × UInt16 × Bool)) (ndebug : Bool) :
    Decided kernel options ndebug (main kernel options (numbered 3)) := by
  cases parsed : parseCmdLine kernel options with
  | none =>
      rw [main, parsed]
      exact .refused fun params given => by cases parsed.symm.trans given
  | some params =>
      by_cases set : kernel.GrantsAll signalCalls
      · rw [main_of_set parsed set]
        by_cases none : params.threadsCount = 0
        · rw [if_pos none]
          exact .undivided parsed set none
        have positive := Nat.pos_of_ne_zero none
        rw [if_neg none]
        by_cases grants : kernel.Grants params
        · obtain ⟨threads, rings, count, serves, begins⟩ :=
            serve_begins ndebug refuses positive grants
          rw [serves]
          exact .serving parsed set grants count begins fun _ => Process.sessions_le
        · obtain ⟨unwinding, later, thrown, left⟩ := serve_refused positive grants
          rw [thrown]
          rcases left with ⟨rfl, several⟩ | ⟨⟨what, rfl⟩, closed⟩
          · exact .terminated parsed set several grants
          · refine .unwound parsed set positive grants (closed.imp_right fun lost => ?_)
            obtain ⟨left, single, loses⟩ := lost
            rw [single] at loses
            exact ⟨left, single, loses⟩
      · rw [main_of_unset parsed set]
        exact .refused fun _ _ => set

/-- A system that refuses nothing but a ring without entries. -/
def Kernel.generous : Kernel where
  succeeds := fun call =>
    match call with
    | .queueInit _ entries _ => entries ≠ 0
    | _ => true
  rlimMax := fun _ => 2 ^ 20
  geteuid := 1000
  hardwareConcurrency := 8

/-- Four threads. -/
theorem startup_decided_four :
    ∃ (threads : Threads) (rings : List Ring),
      main .generous (some (4, 1080, false)) (numbered 3) = .serving rings threads.files ∧
        threads.count = 4 ∧ threads.Begins false false rings threads.files := by
  have refuses : Kernel.generous.RefusesEmpty := fun _ _ => rfl
  have served : main .generous (some (4, 1080, false)) (numbered 3) =
      .serving (List.replicate 4 ⟨8192, false, 3⟩) (numbered 8) := by
    decide
  have decided := startup_decided refuses (some (4, 1080, false)) false
  generalize main .generous (some (4, 1080, false)) (numbered 3) = ending at served decided
  cases decided with
  | serving parsed set grants count begins bounded =>
      cases parsed
      exact ⟨_, _, rfl, count, begins⟩
  | _ => cases served

end ModernCppHw.Socks5
